/-
  LiteratureReview.Proofs.Json.Shaped
  ───────────────────────────────────
  Values that a text of a shape may hold.

  `Shape.Holds shape v` says that `v` is read back from the way it is
  printed by someone who expects `shape`, as long as the nesting is not too
  deep.  There is one lemma for each form of a shape; for lists and records
  it asks that their parts be held by the shapes of the parts.

    • `Shape.holds_record` — a record, by a table of its fields,
    • `Shape.holds_union` — a tagged union, by its tag and its check,
    • `readText_print` — reading a text that is one printed value.
-/
import LiteratureReview.Json.Shape
import LiteratureReview.Proofs.Json.ReadBack
import LiteratureReview.Proofs.Json.Records

namespace LiteratureReview

open Json

/-- The steps that reading a shape can do without, out of three for each character:
whoever looks for null first needs one more. -/
def Shape.slack (shape : Shape) : Nat :=
  if shape.acceptsNull then 0 else 1

/-- A printed value is read back by one who expects the shape, at any number of
levels that is enough for its nesting. -/
def Shape.Holds (shape : Shape) (v : Json) : Prop :=
  v.IsProper ∧ ∀ levels, v.depth < levels → ∀ fuel rest,
    3 * v.print.toList.length ≤ fuel + shape.slack → Scan.Ends rest →
      (Scan.shaped fuel levels shape).Takes v.print.toList v rest

namespace Scan

variable {α : Type} {text rest : List Char}

/-! ## §1. Scalars. -/

/-- The first character of a value is looked at and left where it is. -/
theorem takes_valueToken {x : Char} {more : List Char} (solid : Cursor.isSpace x = false) :
    valueToken.Takes [] x (x :: more) :=
  Takes.look (takes_peekToken_cons solid) (takes_pure x)

theorem takes_textValue (expected s : String) :
    (textValue expected).Takes (printText s).toList s rest := by
  have front : ∃ more, (printText s).toList = '"' :: more := by
    rw [printText_toList]
    exact ⟨_, rfl⟩
  obtain ⟨more, quote⟩ := front
  have whole : string.Takes (printText s).toList s rest := takes_string s
  unfold textValue
  rw [quote] at whole ⊢
  refine Takes.look (takes_valueToken (by decide)) ?_
  rw [if_pos rfl]
  exact whole

theorem takes_variantName {names : List String} {s : String} (known : s ∈ names) :
    (variantName names).Takes (printText s).toList s rest := by
  unfold variantName
  refine Takes.last (takes_textValue _ s) ?_
  rw [if_pos (List.contains_iff_mem.2 known)]
  exact takes_pure s

theorem takes_boolValue (b : Bool) : boolValue.Takes (Json.bool b).print.toList (.bool b) rest := by
  unfold boolValue
  cases b with
  | true =>
    show Takes _ ['t', 'r', 'u', 'e'] _ _
    refine Takes.look (takes_valueToken (by decide)) ?_
    exact Takes.step (takes_skip 't') (Takes.map (takes_word _) fun _ => Json.bool true)
  | false =>
    show Takes _ ['f', 'a', 'l', 's', 'e'] _ _
    refine Takes.look (takes_valueToken (by decide)) ?_
    exact Takes.step (takes_skip 'f') (Takes.map (takes_word _) fun _ => Json.bool false)

/-- The first character of a number is no blank. -/
theorem solid_of_number {d : Char} (digit : d = '-' ∨ d.isDigit = true) :
    Cursor.isSpace d = false := by
  rcases digit with rfl | digit
  · decide
  · simp only [Cursor.isSpace, Bool.or_eq_false_iff, beq_eq_false_iff_ne]
    exact ⟨⟨⟨ne_of_isDigit digit rfl, ne_of_isDigit digit rfl⟩, ne_of_isDigit digit rfl⟩,
      ne_of_isDigit digit rfl⟩

theorem takes_numberValue {expected : String} {check : Number → Except DecodeError Unit}
    {n : Number} (proper : n.isProper = true) (passes : check n = .ok ()) (ends : Ends rest) :
    (numberValue expected check).Takes n.print.toList (.number n) rest := by
  have whole : number.Takes n.print.toList n rest := takes_number proper ends
  obtain ⟨d, ds, written, digit⟩ := print_number_head proper
  unfold numberValue
  rw [written] at whole ⊢
  refine Takes.look (takes_valueToken (solid_of_number digit)) ?_
  have numeric : (d = '-' || d.isDigit) = true := by simpa using digit
  rw [if_pos numeric]
  refine Takes.last whole ?_
  rw [passes]
  exact takes_pure _

end Scan

namespace Shape

open Scan

variable {v : Json}

/-- A printed value has at least one character. -/
theorem length_print_pos (proper : v.IsProper) : 0 < v.print.toList.length := by
  obtain ⟨x, more, written, -⟩ := startsValue_print proper
  simp [written]

/-- There is fuel for a first step, and after it for three more for each character
but the first. -/
theorem holds_of_takes {shape : Shape} (proper : v.IsProper) (given : shape.acceptsNull = false)
    (h : ∀ levels fuel rest, v.depth < levels → 3 * v.print.toList.length ≤ fuel + 2 → Ends rest →
      (shaped (fuel + 1) levels shape).Takes v.print.toList v rest) : shape.Holds v := by
  refine ⟨proper, fun levels shallow fuel rest enough ends => ?_⟩
  have slack : shape.slack = 1 := by
    unfold slack
    rw [given, if_neg Bool.false_ne_true]
  have positive := length_print_pos proper
  obtain ⟨fuel, rfl⟩ : ∃ n, fuel = n + 1 := ⟨fuel - 1, by omega⟩
  exact h levels fuel rest shallow (by omega) ends

theorem Holds.readsBack {shape : Shape} (h : shape.Holds v) {levels : Nat}
    (shallow : v.depth < levels) : ReadsBack 3 (shaped · levels shape) v := by
  refine ⟨startsValue_print h.1, fun fuel rest enough ends => ?_⟩
  exact h.2 levels shallow fuel rest (by omega) ends

theorem holds_text {expected : String} {check : String → Except DecodeError Unit} {s : String}
    (passes : check s = .ok ()) : (Shape.text expected check).Holds (.text s) := by
  refine holds_of_takes rfl rfl fun levels fuel rest _ _ _ => ?_
  rw [shaped]
  refine Takes.last (takes_textValue expected s) ?_
  rw [passes]
  exact takes_pure _

theorem holds_string (s : String) : Shape.string.Holds (.text s) := holds_text rfl

theorem holds_checked {check : String → Except DecodeError Unit} {s : String}
    (passes : check s = .ok ()) : (Shape.checked check).Holds (.text s) := by
  refine holds_of_takes rfl rfl fun levels fuel rest _ _ _ => ?_
  rw [shaped]
  refine Takes.last (takes_textValue _ s) ?_
  rw [passes]
  exact takes_pure _

/-- A text that its decoder accepts. -/
theorem holds_textOf {α : Type} {d : Decoder α} {s : String} {a : α}
    (read : d .free (.text s) = .ok a) : (Shape.textOf d).Holds (.text s) := by
  refine holds_checked ?_
  unfold checkOf
  rw [read]
  rfl

theorem holds_bool (b : Bool) : Shape.bool.Holds (.bool b) := by
  refine holds_of_takes rfl rfl fun levels fuel rest _ _ _ => ?_
  rw [shaped]
  exact takes_boolValue b

theorem holds_number {expected : String} {check : Number → Except DecodeError Unit} {n : Number}
    (proper : n.isProper = true) (passes : check n = .ok ()) :
    (Shape.number expected check).Holds (.number n) := by
  refine holds_of_takes proper rfl fun levels fuel rest _ _ ends => ?_
  rw [shaped]
  exact takes_numberValue proper passes ends

theorem holds_choiceOf {α : Type} {table : List (String × α)} {name : String}
    (known : name ∈ table.map (·.1)) : (Shape.choice (table.map (·.1))).Holds (.text name) := by
  refine holds_of_takes rfl rfl fun levels fuel rest _ _ _ => ?_
  have whole : (variantName (table.map (·.1))).Takes (printText name).toList name rest :=
    takes_variantName known
  show Takes _ (printText name).toList _ _
  rw [shaped]
  unfold choiceValue
  rw [printText_toList] at whole ⊢
  refine Takes.look (takes_valueToken (by decide)) ?_
  exact Takes.map whole Json.text

theorem holds_any (proper : v.IsProper) : Shape.any.Holds v := by
  refine holds_of_takes proper rfl fun levels fuel rest shallow enough ends => ?_
  have positive := length_print_pos proper
  rw [shaped]
  exact (Scan.readsBack proper shallow).2 fuel rest (by omega) ends

/-! ## §2. Null or something. -/

/-- A value other than null is not taken for null. -/
theorem head_print_ne (proper : v.IsProper) (present : v ≠ .null) :
    v.print.toList.head? ≠ some 'n' := by
  cases v with
  | null => exact absurd rfl present
  | bool b => cases b <;> decide
  | number n =>
    obtain ⟨d, ds, written, digit⟩ := print_number_head proper
    show n.print.toList.head? ≠ some 'n'
    rw [written]
    intro same
    obtain rfl : d = 'n' := Option.some.inj same
    rcases digit with minus | digit
    · cases minus
    · cases digit
  | text s =>
    show (printText s).toList.head? ≠ some 'n'
    rw [printText_toList]
    rintro ⟨⟩
  | list items =>
    simp only [print, String.toList_append]
    rintro ⟨⟩
  | object members =>
    simp only [print, String.toList_append]
    rintro ⟨⟩

theorem holds_nullable {content : Shape} (given : content.acceptsNull = false)
    (present : v ≠ .null) (h : content.Holds v) : (Shape.nullable content).Holds v := by
  refine ⟨h.1, fun levels shallow fuel rest enough ends => ?_⟩
  have positive := length_print_pos h.1
  have slack : (Shape.nullable content).slack = 0 := rfl
  have more : content.slack = 1 := by
    unfold Shape.slack
    rw [given, if_neg Bool.false_ne_true]
  obtain ⟨fuel, rfl⟩ : ∃ n, fuel = n + 1 := ⟨fuel - 1, by omega⟩
  have inside := h.2 levels shallow fuel rest (by omega) ends
  rw [shaped]
  refine Takes.look (takes_peekToken_solid ((startsValue_print h.1).append rest)) ?_
  split
  next same =>
    have front : (v.print.toList ++ rest).head? = v.print.toList.head? := by
      obtain ⟨x, more, written, -⟩ := startsValue_print h.1
      rw [written]
      rfl
    exact absurd (front.symm.trans same) (head_print_ne h.1 present)
  next => exact inside

/-! ## §3. Lists. -/

theorem holds_list {item : Shape} {items : List Json} (each : ∀ v ∈ items, item.Holds v) :
    (Shape.list item).Holds (.list items) := by
  have proper : (Json.list items).IsProper := isProper_list_iff.2 fun v mem => (each v mem).1
  refine holds_of_takes proper rfl fun levels fuel rest shallow enough ends => ?_
  rw [print_list_toList] at enough ⊢
  simp only [List.length_cons, List.length_append, List.length_nil] at enough
  rw [depth] at shallow
  have each : ∀ v ∈ items, ReadsBack 3 (shaped · (levels - 1) item) v := by
    intro v mem
    have := depth_le_depthItems mem
    exact (each v mem).readsBack (by omega)
  have unfolds : ∀ fuel first, shapedItems (fuel + 1) (levels - 1) item first = (do
      if ← moreItems first then
        let v ← shaped fuel (levels - 1) item
        return v :: (← shapedItems fuel (levels - 1) item false)
      else return []) := by
    intro fuel first
    rw [shapedItems]
  have inside : (shapedItems fuel (levels - 1) item true).Takes (itemsText true items) items
      (']' :: rest) :=
    takes_items_of (fun fuel first => shapedItems fuel (levels - 1) item first) unfolds
      (by decide) each (by omega)
  rw [shaped]
  refine Takes.look (takes_valueToken (by decide)) ?_
  rw [if_pos rfl]
  exact takes_enter (by omega) (takes_closedBy (Takes.map inside Json.list) takes_endList)

/-! ## §4. Records. -/

/-- What is known of the members of a record that are still to come, after those
whose keys are `seen`. -/
structure Fitting (fields : List (String × Bool × Shape)) (levels : Nat) (seen : List String)
    (members : List (String × Json)) : Prop where
  distinct : (members.map (·.1)).Nodup
  fresh : ∀ m ∈ members, m.1 ∉ seen
  declared : ∀ m ∈ members, ∃ mayEnd shape, fields.lookup m.1 = some (mayEnd, shape) ∧
    ReadsBack 3 (shaped · levels shape) m.2
  complete : ∀ f ∈ fields, f.2.1 = true ∨ f.2.2.acceptsNull = true ∨
    f.1 ∈ seen ∨ f.1 ∈ members.map (·.1)

section Fitting

variable {fields : List (String × Bool × Shape)} {levels : Nat} {seen : List String}
variable {m : String × Json} {members : List (String × Json)}

/-- Once a member has been read, its key is among those met. -/
theorem Fitting.next (fitting : Fitting fields levels seen (m :: members)) :
    Fitting fields levels (m.1 :: seen) members := by
  obtain ⟨new, distinct⟩ := List.nodup_cons.1 fitting.distinct
  refine ⟨distinct, ?_, ?_, ?_⟩
  · intro l mem there
    rcases List.mem_cons.1 there with same | there
    · exact new (List.mem_map.2 ⟨l, mem, same⟩)
    · exact fitting.fresh l (List.mem_cons_of_mem _ mem) there
  · exact fun l mem => fitting.declared l (List.mem_cons_of_mem _ mem)
  · intro f mem
    refine (fitting.complete f mem).imp_right fun h => h.imp_right fun h => ?_
    rcases h with there | there
    · exact .inl (List.mem_cons_of_mem _ there)
    · rcases List.mem_cons.1 there with same | there
      · exact .inl (same ▸ List.mem_cons_self)
      · exact .inr there

/-- When all members have been read, no field is missing. -/
theorem Fitting.find?_missing_eq_none (fitting : Fitting fields levels seen []) :
    (fields.find? fun f => !(seen.contains f.1 || f.2.1 || f.2.2.acceptsNull)) = none := by
  refine List.find?_eq_none.2 fun f mem => ?_
  rcases fitting.complete f mem with mayEnd | missing | there | later
  · simp [mayEnd]
  · simp [missing]
  · simp [there]
  · cases later

end Fitting

theorem takes_shapedMembers {fields : List (String × Bool × Shape)} {levels fuel : Nat}
    {members : List (String × Json)} (fitting : Fitting fields levels [] members)
    (enough : 3 * (membersText true members).length < fuel) {rest : List Char} :
    (shapedMembers fuel levels fields true []).Takes (membersText true members) members
      ('\x7d' :: rest) := by
  refine takes_members_of (by decide) (Fitting fields levels)
    (fun seen fuel first => shapedMembers fuel levels fields first seen) ?_ ?_ fitting enough
  · intro seen fuel first rest fitting
    show (shapedMembers (fuel + 1) levels fields first seen).Takes _ _ _
    rw [shapedMembers]
    refine Takes.look (takes_moreMembers_end first) ?_
    simp only [Bool.false_eq_true, if_false, fitting.find?_missing_eq_none]
    exact takes_pure []
  · intro seen m members fitting
    have unseen : seen.contains m.1 = false := by
      simpa using fitting.fresh m List.mem_cons_self
    obtain ⟨mayEnd, shape, found, reads⟩ := fitting.declared m List.mem_cons_self
    refine ⟨m.1 :: seen, fitting.next, fun fuel first text rest enough ends tail => ?_⟩
    show (shapedMembers (fuel + 1) levels fields first seen).Takes _ _ _
    rw [shapedMembers]
    refine Takes.bind (takes_moreMembers m) ?_
    rw [if_pos rfl]
    refine takes_member reads enough (fun v => do
      return (m.1, v) :: (← shapedMembers fuel levels fields false (m.1 :: seen))) ?_ ends ?_
    · -- the key is declared, and has not been met
      simp only [found, unseen]
      rfl
    · exact Takes.map tail fun ms => m :: ms

/-- **A record is read back by its fields**: every member is declared and held by
the shape of its field, and what is left out may be. -/
theorem holds_record {type : RecordType} {fields : List (String × Bool × Shape)}
    {members : List (String × Json)} (distinct : (members.map (·.1)).Nodup)
    (declared : ∀ m ∈ members, ∃ mayEnd shape, fields.lookup m.1 = some (mayEnd, shape) ∧
      shape.Holds m.2)
    (complete : ∀ f ∈ fields, f.2.1 = true ∨ f.2.2.acceptsNull = true ∨
      f.1 ∈ members.map (·.1)) :
    (Shape.record type fields).Holds (.object members) := by
  have proper : (Json.object members).IsProper := by
    refine isProper_object_iff.2 ⟨distinct, fun m mem => ?_⟩
    obtain ⟨_, _, _, holds⟩ := declared m mem
    exact holds.1
  refine holds_of_takes proper rfl fun levels fuel rest shallow enough ends => ?_
  rw [print_object_toList] at enough ⊢
  simp only [List.length_cons, List.length_append, List.length_nil] at enough
  rw [depth] at shallow
  have fitting : Fitting fields (levels - 1) [] members := by
    refine ⟨distinct, fun m _ => List.not_mem_nil, fun m mem => ?_, fun f mem => ?_⟩
    · obtain ⟨mayEnd, shape, found, holds⟩ := declared m mem
      have := depth_le_depthMembers mem
      exact ⟨mayEnd, shape, found, holds.readsBack (by omega)⟩
    · exact (complete f mem).imp_right fun h => h.imp_right .inr
  have inside : (shapedMembers fuel (levels - 1) fields true []).Takes (membersText true members)
      members ('\x7d' :: rest) := takes_shapedMembers fitting (by omega)
  rw [shaped]
  refine Takes.look (takes_valueToken (by decide)) ?_
  exact takes_enter (by omega) (takes_closedBy (Takes.map inside Json.object) takes_endObject)

/-! ## §5. Tagged unions. -/

/-- What is known of the members of a tagged union that are still to come: the tag
is among them unless it has been met. -/
structure Tagging (u : UnionType) (levels : Nat) (name : String) (tagged : Bool)
    (members : List (String × Json)) : Prop where
  distinct : (members.map (·.1)).Nodup
  tag : tagged = false ↔ u.tag ∈ members.map (·.1)
  variant : ∀ m ∈ members, m.1 = u.tag → m.2 = .text name
  others : ∀ m ∈ members, ReadsBack 1 (value · levels) m.2

section Tagging

variable {u : UnionType} {levels fuel : Nat} {name : String} {tagged first : Bool}
variable {m : String × Json} {members : List (String × Json)} {text rest : List Char}

/-- When no member is left, the tag has been met. -/
theorem Tagging.eq_true (tagging : Tagging u levels name tagged []) : tagged = true := by
  rw [← Bool.not_eq_false, tagging.tag]
  exact List.not_mem_nil

/-- Behind the tag there is no other. -/
theorem Tagging.next_of_tag (tagging : Tagging u levels name tagged (m :: members))
    (tag : m.1 = u.tag) : Tagging u levels name true members := by
  obtain ⟨new, distinct⟩ := List.nodup_cons.1 tagging.distinct
  have gone : u.tag ∉ members.map (·.1) := by
    rw [← tag]
    exact new
  exact ⟨distinct, ⟨nofun, fun there => absurd there gone⟩,
    fun l mem => tagging.variant l (List.mem_cons_of_mem _ mem),
    fun l mem => tagging.others l (List.mem_cons_of_mem _ mem)⟩

/-- Behind another member the tag is still to come, or has been met before. -/
theorem Tagging.next_of_ne (tagging : Tagging u levels name tagged (m :: members))
    (other : m.1 ≠ u.tag) : Tagging u levels name tagged members := by
  refine ⟨(List.nodup_cons.1 tagging.distinct).2, ?_,
    fun l mem => tagging.variant l (List.mem_cons_of_mem _ mem),
    fun l mem => tagging.others l (List.mem_cons_of_mem _ mem)⟩
  rw [tagging.tag, List.map_cons, List.mem_cons]
  exact ⟨fun there => there.resolve_left (Ne.symm other), .inr⟩

/-- The tag is read as the name of a variant. -/
theorem takes_tagMember (known : name ∈ u.variants)
    (tail : (unionMembers u levels fuel false true).Takes text members rest) :
    (unionMembers u levels (fuel + 1) first false).Takes
      (comma first ++ (memberText (u.tag, .text name) ++ text))
      ((u.tag, .text name) :: members) rest := by
  rw [unionMembers]
  refine Takes.bind (takes_moreMembers (u.tag, .text name)) ?_
  rw [if_pos rfl]
  unfold memberText
  rw [List.append_assoc, List.cons_append]
  refine Takes.bind (takes_string u.tag) ?_
  rw [if_pos rfl]
  simp only [Bool.false_eq_true, if_false]
  refine Takes.step takes_colon (Takes.bind (takes_variantName known) ?_)
  exact Takes.map tail fun ms => (u.tag, Json.text name) :: ms

/-- Any other member is read as a value. -/
theorem takes_otherMember (other : m.1 ≠ u.tag) (reads : ReadsBack 1 (value · levels) m.2)
    (enough : 1 * (memberText m).length ≤ fuel) (ends : Ends (text ++ rest))
    (tail : (unionMembers u levels fuel false tagged).Takes text members rest) :
    (unionMembers u levels (fuel + 1) first tagged).Takes
      (comma first ++ (memberText m ++ text)) (m :: members) rest := by
  rw [unionMembers]
  refine Takes.bind (takes_moreMembers m) ?_
  rw [if_pos rfl]
  refine takes_member reads enough (fun v => do
    return (m.1, v) :: (← unionMembers u levels fuel false tagged)) ?_ ends ?_
  · rw [if_neg other]
  · exact Takes.map tail fun ms => m :: ms

theorem takes_unionMembers (known : name ∈ u.variants)
    (tagging : Tagging u levels name false members)
    (enough : 1 * (membersText true members).length < fuel) :
    (unionMembers u levels fuel true false).Takes (membersText true members) members
      ('\x7d' :: rest) := by
  refine takes_members_of Nat.one_pos (Tagging u levels name)
    (fun tagged fuel first => unionMembers u levels fuel first tagged) ?_ ?_ tagging enough
  · intro tagged fuel first rest tagging
    obtain rfl := tagging.eq_true
    show (unionMembers u levels (fuel + 1) first true).Takes _ _ _
    rw [unionMembers]
    exact Takes.look (takes_moreMembers_end first) (takes_pure [])
  · intro tagged m members tagging
    by_cases tag : m.1 = u.tag
    · refine ⟨true, tagging.next_of_tag tag, fun fuel first text rest enough ends tail => ?_⟩
      obtain rfl : tagged = false := tagging.tag.2 (List.mem_map.2 ⟨m, List.mem_cons_self, tag⟩)
      obtain ⟨key, v⟩ := m
      obtain rfl : v = .text name := tagging.variant _ List.mem_cons_self tag
      obtain rfl : key = u.tag := tag
      exact takes_tagMember known tail
    · exact ⟨tagged, tagging.next_of_ne tag, fun fuel first text rest enough ends tail =>
        takes_otherMember tag (tagging.others m List.mem_cons_self) enough ends tail⟩

end Tagging

/-- **A tagged union is read back by its tag** and by what its check says of the
whole. -/
theorem holds_union {u : UnionType} {check : Json → Except DecodeError Unit} {name : String}
    {members : List (String × Json)} (proper : (Json.object members).IsProper)
    (tag : members.lookup u.tag = some (.text name)) (known : name ∈ u.variants)
    (passes : check (.object members) = .ok ()) :
    (Shape.union u check).Holds (.object members) := by
  refine holds_of_takes proper rfl fun levels fuel rest shallow enough ends => ?_
  rw [print_object_toList] at enough ⊢
  simp only [List.length_cons, List.length_append, List.length_nil] at enough
  rw [depth] at shallow
  obtain ⟨distinct, each⟩ := isProper_object_iff.1 proper
  have tagging : Tagging u (levels - 1) name false members := by
    refine ⟨distinct, ?_, ?_, ?_⟩
    · exact ⟨fun _ => List.mem_map_of_mem (mem_of_lookup tag), fun _ => rfl⟩
    · intro m mem same
      have found : members.lookup m.1 = some m.2 := lookup_of_mem distinct mem
      rw [same, tag] at found
      exact (Option.some.inj found).symm
    · intro m mem
      have := depth_le_depthMembers mem
      exact Scan.readsBack (each m mem) (by omega)
  have inside : (unionMembers u (levels - 1) fuel true false).Takes (membersText true members)
      members ('\x7d' :: rest) := takes_unionMembers known tagging (by omega)
  rw [shaped]
  refine Takes.last ?_ ?_ (a := .object members)
  · unfold unionValue
    refine Takes.look (takes_valueToken (by decide)) ?_
    exact takes_enter (by omega) (takes_closedBy (Takes.map inside Json.object) takes_endObject)
  · rw [passes]
    exact takes_pure _

end Shape

/-! ## §6. Whole texts. -/

/-- **A text that is one printed value is decoded as the value.** -/
theorem readText_print {α : Type} {shape : Shape} {d : Decoder α} {v : Json} {a : α}
    (h : shape.Holds v) (shallow : v.depth < Scan.levelLimit) (read : d .free v = .ok a) :
    readText shape d v.print = .ok a := by
  have whole : Scan.run (fun fuel => Scan.shaped fuel Scan.levelLimit shape) v.print = .ok v := by
    refine Scan.run_of_takes fun fuel enough => ?_
    exact h.2 Scan.levelLimit shallow fuel [] (by omega) Scan.ends_nil
  unfold readText
  rw [whole]
  show (d .free v).mapError _ = _
  rw [read]
  rfl

end LiteratureReview
