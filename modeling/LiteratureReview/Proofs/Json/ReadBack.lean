/-
  LiteratureReview.Proofs.Json.ReadBack
  ─────────────────────────────────────
  JSON values are read back from the way they are printed.

  The scan of a printed value is followed along the value: its first
  character tells which form it has, and inside lists and objects the
  separators are where the scanner looks for them.  The induction is on the
  levels of nesting that are left; the recursion of the scanner has fuel
  enough as long as there are characters.

    • `takes_value` — one value inside a text,
    • `parseOrdered_print` — a text that is one printed value.
-/
import LiteratureReview.Json.Reader
import LiteratureReview.Proofs.Json.Numerals

namespace LiteratureReview

open Json

namespace Scan

variable {α : Type} {text rest : List Char}

/-! ## §1. Where a value starts. -/

/-- The first character of a value; neither a blank nor a separator. -/
def StartsValue (cs : List Char) : Prop :=
  ∃ x more, cs = x :: more ∧ Cursor.isSpace x = false ∧ x ≠ ']' ∧ x ≠ '\x7d' ∧ x ≠ ','

theorem startsValue_cons {x : Char} {more : List Char}
    (h : (!Cursor.isSpace x && x != ']' && x != '\x7d' && x != ',') = true) :
    StartsValue (x :: more) := by
  simp only [Bool.and_eq_true, Bool.not_eq_true', bne_iff_ne] at h
  exact ⟨x, more, rfl, h.1.1.1, h.1.1.2, h.1.2, h.2⟩

theorem StartsValue.append (h : StartsValue text) (rest : List Char) :
    StartsValue (text ++ rest) := by
  obtain ⟨x, more, rfl, facts⟩ := h
  exact ⟨x, more ++ rest, rfl, facts⟩

/-- A digit is none of the other characters that mean something. -/
theorem ne_of_isDigit {x y : Char} (hx : x.isDigit = true) (hy : y.isDigit = false) : x ≠ y := by
  rintro rfl
  rw [hx] at hy
  cases hy

theorem startsValue_print {v : Json} (proper : v.IsProper) : StartsValue v.print.toList := by
  cases v with
  | null => exact startsValue_cons (by decide : (!Cursor.isSpace 'n' && _) = true)
  | bool b =>
    cases b with
    | true => exact startsValue_cons (by decide : (!Cursor.isSpace 't' && _) = true)
    | false => exact startsValue_cons (by decide : (!Cursor.isSpace 'f' && _) = true)
  | number n =>
    obtain ⟨d, ds, written, digit⟩ := print_number_head proper
    show StartsValue n.print.toList
    rw [written]
    rcases digit with rfl | digit
    · exact startsValue_cons (by decide)
    · refine ⟨d, ds, rfl, ?_, ne_of_isDigit digit rfl, ne_of_isDigit digit rfl,
        ne_of_isDigit digit rfl⟩
      simp only [Cursor.isSpace, Bool.or_eq_false_iff, beq_eq_false_iff_ne]
      exact ⟨⟨⟨ne_of_isDigit digit rfl, ne_of_isDigit digit rfl⟩, ne_of_isDigit digit rfl⟩,
        ne_of_isDigit digit rfl⟩
  | text s =>
    show StartsValue (printText s).toList
    rw [printText_toList]
    exact startsValue_cons (by decide)
  | list items =>
    simp only [print, String.toList_append]
    exact startsValue_cons (x := '[') (by decide)
  | object members =>
    simp only [print, String.toList_append]
    exact startsValue_cons (x := '\x7b') (by decide)

theorem takes_peekToken_solid (h : StartsValue text) : peekToken.Takes [] text.head? text := by
  apply takes_peekToken
  obtain ⟨x, more, rfl, solid, -⟩ := h
  rintro y ⟨⟩
  exact solid

/-! ## §2. Separators. -/

/-- A separator is looked at and left where it is. -/
theorem takes_peekToken_cons {x : Char} (h : Cursor.isSpace x = false) :
    peekToken.Takes [] (some x) (x :: rest) := by
  have solid : ∀ y ∈ (x :: rest).head?, Cursor.isSpace y = false := by
    rintro y ⟨⟩
    exact h
  exact takes_peekToken solid

theorem takes_moreItems_end (first : Bool) : (moreItems first).Takes [] false (']' :: rest) :=
  Takes.look (takes_peekToken_cons (by decide)) (takes_pure false)

theorem takes_moreItems_first (h : StartsValue rest) : (moreItems true).Takes [] true rest := by
  refine Takes.look (takes_peekToken_solid h) ?_
  obtain ⟨x, more, rfl, -, other, -⟩ := h
  simp only [List.nil_append, List.head?_cons, if_true]
  exact takes_pure true

theorem takes_moreItems_next (h : StartsValue rest) :
    (moreItems false).Takes [','] true rest := by
  refine Takes.look (takes_peekToken_cons (by decide)) ?_
  refine Takes.step (takes_skip ',') ?_
  refine Takes.look (takes_peekToken_solid h) ?_
  obtain ⟨x, more, rfl, -, other, -⟩ := h
  simp only [List.nil_append, List.head?_cons]
  exact takes_pure true

theorem takes_moreMembers_end (first : Bool) :
    (moreMembers first).Takes [] false ('\x7d' :: rest) :=
  Takes.look (takes_peekToken_cons (by decide)) (takes_pure false)

theorem takes_moreMembers_first : (moreMembers true).Takes [] true ('"' :: rest) :=
  Takes.look (takes_peekToken_cons (by decide)) (takes_pure true)

theorem takes_moreMembers_next : (moreMembers false).Takes [','] true ('"' :: rest) := by
  refine Takes.look (takes_peekToken_cons (by decide)) ?_
  refine Takes.step (takes_skip ',') ?_
  exact Takes.look (takes_peekToken_cons (by decide)) (takes_pure true)

theorem takes_colon : colon.Takes [':'] () rest :=
  Takes.look (takes_peekToken_cons (by decide)) (takes_skip ':')

theorem takes_endList : endList.Takes [']'] () rest :=
  Takes.look (takes_peekToken_cons (by decide)) (takes_skip ']')

theorem takes_endObject : endObject.Takes ['\x7d'] () rest :=
  Takes.look (takes_peekToken_cons (by decide)) (takes_skip '\x7d')

/-- What stands between brackets is taken with the closing one. -/
theorem takes_closedBy {close : Scan Unit} {inside : Scan α} {a : α} {x : Char}
    (within : inside.Takes text a (x :: rest)) (closing : close.Takes [x] () rest) :
    (closedBy close inside).Takes (text ++ [x]) a rest := by
  intro c start
  rw [List.append_assoc] at start
  obtain ⟨d, run, there⟩ := within c start
  obtain ⟨e, more, done⟩ := closing d there
  refine ⟨e, ?_, done⟩
  simp only [closedBy, run, more]

/-- A list or an object is entered when there are two levels left. -/
theorem takes_enter {levels : Nat} {inside : Nat → Scan α} {a : α} {x : Char}
    (deep : 2 ≤ levels) (h : (inside (levels - 1)).Takes text a rest) :
    (enter levels inside).Takes (x :: text) a rest := by
  unfold enter
  rw [if_neg (by omega)]
  exact Takes.step (takes_skip x) h

/-! ## §3. Elements and members. -/

/-- What stands between an element or member and the one before it. -/
def comma (first : Bool) : List Char := if first then [] else [',']

/-- Elements, each with the comma before it. -/
def itemsText : Bool → List Json → List Char
  | _, [] => []
  | first, v :: rest => comma first ++ (v.print.toList ++ itemsText false rest)

/-- A key and its value. -/
def memberText (m : String × Json) : List Char :=
  (printText m.1).toList ++ ':' :: m.2.print.toList

/-- Members, each with the comma before it. -/
def membersText : Bool → List (String × Json) → List Char
  | _, [] => []
  | first, m :: rest => comma first ++ (memberText m ++ membersText false rest)

theorem printItems_toList (items : List Json) :
    (printItems items).toList = itemsText true items := by
  have behind : ∀ items v, (printItems (v :: items)).toList =
      v.print.toList ++ itemsText false items := by
    intro items
    induction items with
    | nil => intro v; simp [printItems, itemsText]
    | cons w items ih =>
      intro v
      rw [printItems, String.toList_append, String.toList_append, ih w]
      simp [itemsText, comma]
  cases items with
  | nil => rfl
  | cons v items => exact behind items v

theorem printMembers_toList (members : List (String × Json)) :
    (printMembers members).toList = membersText true members := by
  have behind : ∀ members m, (printMembers (m :: members)).toList =
      memberText m ++ membersText false members := by
    intro members
    induction members with
    | nil =>
      intro m
      obtain ⟨k, v⟩ := m
      simp [printMembers, membersText, memberText]
    | cons l members ih =>
      intro m
      obtain ⟨k, v⟩ := m
      rw [printMembers]
      simp only [String.toList_append, ih l]
      simp [membersText, memberText, comma]
  cases members with
  | nil => rfl
  | cons m members => exact behind members m

theorem print_list_toList (items : List Json) :
    (Json.list items).print.toList = '[' :: (itemsText true items ++ [']']) := by
  simp only [print, String.toList_append, printItems_toList]
  rfl

theorem print_object_toList (members : List (String × Json)) :
    (Json.object members).print.toList = '\x7b' :: (membersText true members ++ ['\x7d']) := by
  simp only [print, String.toList_append, printMembers_toList]
  rfl

theorem ends_itemsText (items : List Json) : Ends (itemsText false items ++ ']' :: rest) := by
  cases items with
  | nil => exact ends_list
  | cons v items => exact ends_comma

theorem ends_membersText (members : List (String × Json)) :
    Ends (membersText false members ++ '\x7d' :: rest) := by
  cases members with
  | nil => exact ends_object
  | cons m members => exact ends_comma

theorem takes_moreItems {first : Bool} (h : StartsValue rest) :
    (moreItems first).Takes (comma first) true rest := by
  cases first with
  | true => exact takes_moreItems_first h
  | false => exact takes_moreItems_next h

theorem takes_moreMembers {first : Bool} (m : String × Json) :
    (moreMembers first).Takes (comma first) true (memberText m ++ text ++ rest) := by
  have front : ∃ more, memberText m = '"' :: more := by
    rw [memberText, printText_toList]
    exact ⟨_, rfl⟩
  obtain ⟨more, quote⟩ := front
  rw [quote]
  cases first with
  | true => exact takes_moreMembers_first
  | false => exact takes_moreMembers_next

/-- A value that a scan reads back whatever follows it, with so much fuel for each
character. -/
def ReadsBack (weight : Nat) (one : Nat → Scan Json) (v : Json) : Prop :=
  StartsValue v.print.toList ∧ ∀ fuel rest, weight * v.print.toList.length ≤ fuel → Ends rest →
    (one fuel).Takes v.print.toList v rest

section Loops

variable {weight : Nat} {one : Nat → Scan Json}

/-- Elements are read back by a loop that reads one after the other. -/
theorem takes_items_of (loop : Nat → Bool → Scan (List Json))
    (unfolds : ∀ fuel first, loop (fuel + 1) first = (do
      if ← moreItems first then
        let v ← one fuel
        return v :: (← loop fuel false)
      else return []))
    {items : List Json} (some : 0 < weight) (each : ∀ v ∈ items, ReadsBack weight one v)
    {first : Bool} {fuel : Nat} (enough : weight * (itemsText first items).length < fuel) :
    (loop fuel first).Takes (itemsText first items) items (']' :: rest) := by
  induction items generalizing first fuel with
  | nil =>
    obtain ⟨fuel, rfl⟩ : ∃ n, fuel = n + 1 := ⟨fuel - 1, by omega⟩
    rw [unfolds]
    exact Takes.look (takes_moreItems_end first) (takes_pure [])
  | cons v items ih =>
    obtain ⟨starts, reads⟩ := each v List.mem_cons_self
    -- an element has at least one character, so the fuel shrinks no faster than the text
    have positive : 0 < weight * v.print.toList.length := by
      obtain ⟨x, more, written, -⟩ := starts
      exact Nat.mul_pos some (by simp [written])
    obtain ⟨fuel, rfl⟩ : ∃ n, fuel = n + 1 := ⟨fuel - 1, by omega⟩
    simp only [itemsText, List.length_append, Nat.mul_add] at enough
    rw [unfolds]
    unfold itemsText
    refine Takes.bind (takes_moreItems ?_) ?_
    · rw [List.append_assoc]
      exact starts.append _
    rw [if_pos rfl]
    refine Takes.bind (reads fuel _ (by omega) (ends_itemsText items)) ?_
    exact Takes.map (ih (fun w mem => each w (List.mem_cons_of_mem _ mem)) (by omega))
      fun tail => v :: tail

/-- A key, and then a value that is read back. -/
theorem takes_member {m : String × Json} {fuel : Nat} (reads : ReadsBack weight one m.2)
    (enough : weight * (memberText m).length ≤ fuel)
    {g : String → Scan α} (f : Json → Scan α) {a : α}
    (behindKey : g m.1 = (colon >>= fun _ => one fuel >>= f))
    (ends : Ends (text ++ rest)) (after : (f m.2).Takes text a rest) :
    (string >>= g).Takes (memberText m ++ text) a rest := by
  unfold memberText at enough ⊢
  rw [List.append_assoc, List.cons_append]
  rw [List.length_append, List.length_cons, Nat.mul_add, Nat.mul_succ] at enough
  refine Takes.bind (takes_string m.1) ?_
  rw [behindKey]
  exact Takes.step takes_colon (Takes.bind (reads.2 fuel _ (by omega) ends) after)

/-- Members are read back by a loop over them.  Between two members the loop may
remember something, of which `Ready` says that it fits the members to come. -/
theorem takes_members_of {σ : Type} (some : 0 < weight) (Ready : σ → List (String × Json) → Prop)
    (loop : σ → Nat → Bool → Scan (List (String × Json)))
    (stop : ∀ s fuel first rest, Ready s [] → (loop s (fuel + 1) first).Takes [] []
      ('\x7d' :: rest))
    (step : ∀ s m members, Ready s (m :: members) → ∃ next, Ready next members ∧
      ∀ fuel first text rest, weight * (memberText m).length ≤ fuel → Ends (text ++ rest) →
        (loop next fuel false).Takes text members rest →
          (loop s (fuel + 1) first).Takes (comma first ++ (memberText m ++ text)) (m :: members)
            rest)
    {s : σ} {members : List (String × Json)} (ready : Ready s members) {first : Bool} {fuel : Nat}
    (enough : weight * (membersText first members).length < fuel) :
    (loop s fuel first).Takes (membersText first members) members ('\x7d' :: rest) := by
  induction members generalizing s first fuel with
  | nil =>
    obtain ⟨fuel, rfl⟩ : ∃ n, fuel = n + 1 := ⟨fuel - 1, by omega⟩
    exact stop s fuel first rest ready
  | cons m members ih =>
    have positive : 0 < weight * (memberText m).length := Nat.mul_pos some (by simp [memberText])
    obtain ⟨fuel, rfl⟩ : ∃ n, fuel = n + 1 := ⟨fuel - 1, by omega⟩
    simp only [membersText, List.length_append, Nat.mul_add] at enough
    obtain ⟨next, later, reads⟩ := step s m members ready
    unfold membersText
    exact reads fuel first _ _ (by omega) (ends_membersText members) (ih later (by omega))

end Loops

theorem takes_items {levels fuel : Nat} {items : List Json}
    (each : ∀ v ∈ items, ReadsBack 1 (value · levels) v)
    (enough : (itemsText true items).length < fuel) :
    (Scan.items fuel levels true).Takes (itemsText true items) items (']' :: rest) := by
  have unfolds : ∀ fuel first, Scan.items (fuel + 1) levels first = (do
      if ← moreItems first then
        let v ← value fuel levels
        return v :: (← Scan.items fuel levels false)
      else return []) := by
    intro fuel first
    rw [Scan.items]
  exact takes_items_of (fun fuel first => Scan.items fuel levels first) unfolds Nat.one_pos each
    (by rwa [Nat.one_mul])

theorem takes_members {levels fuel : Nat} {members : List (String × Json)}
    (each : ∀ m ∈ members, ReadsBack 1 (value · levels) m.2)
    (enough : (membersText true members).length < fuel) :
    (Scan.members fuel levels true).Takes (membersText true members) members
      ('\x7d' :: rest) := by
  -- nothing is remembered between members
  refine takes_members_of Nat.one_pos
    (fun (_ : Unit) members => ∀ m ∈ members, ReadsBack 1 (value · levels) m.2)
    (fun _ fuel first => Scan.members fuel levels first) ?_ ?_ (s := ()) each
    (by rwa [Nat.one_mul])
  · intro _ fuel first rest _
    show (Scan.members (fuel + 1) levels first).Takes _ _ _
    rw [Scan.members]
    exact Takes.look (takes_moreMembers_end first) (takes_pure [])
  · intro _ m members each
    refine ⟨(), fun l mem => each l (List.mem_cons_of_mem _ mem), ?_⟩
    intro fuel first text rest enough ends tail
    show (Scan.members (fuel + 1) levels first).Takes _ _ _
    rw [Scan.members]
    refine Takes.bind (takes_moreMembers m) ?_
    rw [if_pos rfl]
    refine takes_member (each m List.mem_cons_self) enough (fun v => do
      return (m.1, v) :: (← Scan.members fuel levels false)) rfl ends ?_
    exact Takes.map tail fun ms => m :: ms

/-! ## §4. Values. -/

/-- A value is told by its first character, which for numbers is none of those that other
values begin with. -/
theorem takes_value_number {levels fuel : Nat} {n : Number} (proper : n.isProper = true)
    (ends : Ends rest) : (value (fuel + 1) levels).Takes n.print.toList (.number n) rest := by
  have read := Takes.map (takes_number proper ends) Json.number
  have starts : StartsValue n.print.toList := startsValue_print (v := .number n) proper
  obtain ⟨d, ds, written, digit⟩ := print_number_head proper
  have numeric : (d = '-' || d.isDigit) = true := by simpa using digit
  have other : ∀ {x : Char}, x ≠ '-' → x.isDigit = false → d ≠ x := by
    rintro x minus plain rfl
    simp [minus, plain] at digit
  refine Takes.look (takes_peekToken_solid (starts.append rest)) ?_
  rw [written] at read ⊢
  simp only [List.cons_append, List.head?_cons]
  split
  case h_1 none => cases none
  case h_2 same => cases same; exact absurd rfl (other (by decide) (by decide))
  case h_3 same => cases same; exact absurd rfl (other (by decide) (by decide))
  case h_4 same => cases same; exact absurd rfl (other (by decide) (by decide))
  case h_5 same => cases same; exact absurd rfl (other (by decide) (by decide))
  case h_6 same => cases same; exact absurd rfl (other (by decide) (by decide))
  case h_7 same => cases same; exact absurd rfl (other (by decide) (by decide))
  case h_8 same =>
    cases same
    rw [if_pos numeric]
    exact read

theorem takes_value_text {levels fuel : Nat} (s : String) :
    (value (fuel + 1) levels).Takes (printText s).toList (.text s) rest := by
  have whole : string.Takes (printText s).toList s rest := takes_string s
  have read := Takes.map whole Json.text
  have starts : StartsValue (printText s).toList := startsValue_print (v := .text s) rfl
  refine Takes.look (takes_peekToken_solid (starts.append rest)) ?_
  rw [printText_toList] at read ⊢
  exact read

theorem takes_value_list {levels fuel : Nat} {items : List Json} (deep : 1 < levels)
    (each : ∀ w ∈ items, ReadsBack 1 (value · (levels - 1)) w)
    (enough : (itemsText true items).length < fuel) :
    (value (fuel + 1) levels).Takes ('[' :: (itemsText true items ++ [']'])) (.list items)
      rest := by
  refine Takes.look (takes_peekToken_cons (by decide)) ?_
  exact takes_enter deep
    (takes_closedBy (Takes.map (takes_items each enough) Json.list) takes_endList)

theorem takes_value_object {levels fuel : Nat} {members : List (String × Json)}
    (deep : 1 < levels) (each : ∀ m ∈ members, ReadsBack 1 (value · (levels - 1)) m.2)
    (enough : (membersText true members).length < fuel) :
    (value (fuel + 1) levels).Takes ('\x7b' :: (membersText true members ++ ['\x7d']))
      (.object members) rest := by
  refine Takes.look (takes_peekToken_cons (by decide)) ?_
  exact takes_enter deep
    (takes_closedBy (Takes.map (takes_members each enough) Json.object) takes_endObject)

/-- **A printed value is read back**, when its nesting is below the levels
that are left. -/
theorem readsBack {levels : Nat} {v : Json} (proper : v.IsProper) (shallow : v.depth < levels) :
    ReadsBack 1 (value · levels) v := by
  induction levels generalizing v with
  | zero => omega
  | succ levels ih =>
    have starts := startsValue_print proper
    refine ⟨starts, fun fuel rest enough ends => ?_⟩
    rw [Nat.one_mul] at enough
    have positive : 0 < v.print.toList.length := by
      obtain ⟨x, more, written, -⟩ := starts
      simp [written]
    obtain ⟨fuel, rfl⟩ : ∃ n, fuel = n + 1 := ⟨fuel - 1, by omega⟩
    cases v with
    | null =>
      refine Takes.look (takes_peekToken_solid (starts.append rest)) ?_
      show Takes _ ['n', 'u', 'l', 'l'] _ _
      exact Takes.step (takes_skip 'n') (Takes.map (takes_word _) fun _ => Json.null)
    | bool b =>
      refine Takes.look (takes_peekToken_solid (starts.append rest)) ?_
      cases b with
      | true =>
        show Takes _ ['t', 'r', 'u', 'e'] _ _
        exact Takes.step (takes_skip 't') (Takes.map (takes_word _) fun _ => Json.bool true)
      | false =>
        show Takes _ ['f', 'a', 'l', 's', 'e'] _ _
        exact Takes.step (takes_skip 'f') (Takes.map (takes_word _) fun _ => Json.bool false)
    | number n => exact takes_value_number proper ends
    | text s => exact takes_value_text s
    | list items =>
      rw [print_list_toList] at enough ⊢
      simp only [List.length_cons, List.length_append, List.length_nil] at enough
      rw [isProper_list_iff] at proper
      have each : ∀ w ∈ items, ReadsBack 1 (value · levels) w := fun w mem =>
        ih (proper w mem) (by have := depth_item_lt mem; omega)
      rw [depth] at shallow
      exact takes_value_list (by omega) each (by omega)
    | object members =>
      rw [print_object_toList] at enough ⊢
      simp only [List.length_cons, List.length_append, List.length_nil] at enough
      rw [isProper_object_iff] at proper
      have each : ∀ m ∈ members, ReadsBack 1 (value · levels) m.2 := fun m mem =>
        ih (proper.2 m mem) (by have := depth_member_lt mem; omega)
      rw [depth] at shallow
      exact takes_value_object (by omega) each (by omega)

/-! ## §5. Whole texts. -/

/-- A scan that takes a whole text gives its answer. -/
theorem run_of_takes {inside : Nat → Scan α} {s : String} {a : α}
    (h : ∀ fuel, 3 * s.toList.length ≤ fuel → (inside fuel).Takes s.toList a []) :
    run inside s = .ok a := by
  have enough : 3 * s.toList.length ≤ fuelFor (Cursor.ofString s) := by
    unfold fuelFor Cursor.ofString
    show 3 * s.toList.length ≤ 3 * s.toList.length + 8
    omega
  have nothing : peekToken.Takes [] none [] := takes_peekToken (by rintro x ⟨⟩)
  have atEnd : endOfText.Takes [] () [] := Takes.look nothing (takes_pure ())
  have whole := Takes.last (f := fun a => endOfText >>= fun _ => pure a) (h _ enough)
    (Takes.last atEnd (takes_pure a))
  obtain ⟨d, run, -⟩ := whole (Cursor.ofString s) (List.append_nil _).symm
  unfold Scan.run
  simp only
  split
  case h_1 ok =>
    rw [run] at ok
    cases ok
    rfl
  case h_2 error =>
    rw [run] at error
    cases error

end Scan

namespace Json

/-- **A text that is one printed value holds that value**, members in the
order in which they were printed. -/
theorem parseOrdered_print {v : Json} (proper : v.IsProper) (shallow : v.depth < Scan.levelLimit) :
    Json.parseOrdered v.print = .ok v :=
  Scan.run_of_takes fun fuel enough =>
    (Scan.readsBack proper shallow).2 fuel [] (by omega) Scan.ends_nil

theorem parse_print {v : Json} (proper : v.IsProper) (shallow : v.depth < Scan.levelLimit) :
    Json.parse v.print = .ok v.normalize := by
  rw [Json.parse, parseOrdered_print proper shallow]
  rfl

end Json

end LiteratureReview
