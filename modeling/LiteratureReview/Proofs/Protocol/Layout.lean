/-
  LiteratureReview.Proofs.Protocol.Layout
  ───────────────────────────────────────
  What the types of a protocol declare, and what is left of a document when
  everything else is taken out.

  The layout says which keys an object has at each place of a document, which
  of them may be null, and what stands under them.  It is read off the type;
  of reports and categories, off the tags of the value as well.

      prune   — only declared members are kept, of optional ones only those
                that are not null, and every real is a double,
      canon   — the same, members by ascending key.

  Whoever looks only at declared members, and takes null for absence, cannot
  tell a value from its canonical form (`get?_canon`).
-/
import LiteratureReview.Proofs.Decimal.Rounding
import LiteratureReview.Proofs.Json.Ordering
import LiteratureReview.Protocol.Document

namespace LiteratureReview.Layout

open Json

/-! ## §1. The layout. -/

/-- The record types of a protocol, a tagged union being one with all its
variants. -/
inductive Section where
  | document
  | project
  | screening
  | entry
  | phase
  | quality
  | response
  | report
  | category
  deriving DecidableEq, Repr

/-- What can stand at a place of a document. -/
inductive Slot where
  /-- A text, a truth value or an integer. -/
  | scalar
  /-- A number that is stored as a double. -/
  | real
  /-- Any value, which is stored as it is. -/
  | payload
  | list (item : Slot)
  | record (type : Section)
  deriving DecidableEq, Repr

theorem Slot.record_ne_payload (type : Section) : record type ≠ payload := nofun

/-- A member that is declared. -/
structure Field where
  key : String
  /-- It may be null or left out. -/
  optional : Bool
  slot : Slot
  deriving DecidableEq, Repr

/-- A member that has to be given. -/
def need (key : String) (slot : Slot) : Field := ⟨key, false, slot⟩

/-- A member that may be null or left out. -/
def may (key : String) (slot : Slot) : Field := ⟨key, true, slot⟩

/-- The text of a tag. -/
def tagText (v : Json) (tag : String) : Option String := (v.get? tag).bind asText?

theorem tagText_eq {v : Json} {tag name : String} (found : v.get? tag = some (.text name)) :
    tagText v tag = some name := by
  rw [tagText, found]
  rfl

/-- The members of a category, tags apart: what every category has, and what belongs
to its kind. -/
def node (kind limits : List Field) : List Field :=
  [need "name" .scalar, may "title" .scalar] ++ kind
    ++ [need "mandatory" .scalar, may "numberOfValues" .scalar] ++ limits
    ++ [may "sub_categories" (.list (.record .category))]

/-- The members of a category with some tags.  Of a kind that is not known, only
those are declared that every category has. -/
def categoryFields (type subtype : Option String) : List Field :=
  match type with
  | some "Simple" =>
    [need "category_type" .scalar] ++
      node [need "type" .scalar]
        [may "max_char" .scalar, may "pattern" .scalar, may "initial_value" .payload]
  | some "List" =>
    [need "category_type" .scalar] ++ node [need "values" (.list (.record .entry))] []
  -- the second tag belongs to dynamic lists alone
  | some "DynamicList" =>
    [need "category_type" .scalar, need "dynamic_subtype" .scalar] ++
      match subtype with
      | some "Independent" =>
        node [may "reference_name" .scalar, need "initial_values" (.list (.record .entry))] []
      | some "Dependent" => node [need "depends_on" .scalar] []
      | _ => node [] []
  | _ => [need "category_type" .scalar] ++ node [] []

/-- The members of a report with some tag. -/
def reportFields (type : Option String) : List Field :=
  [need "report_type" .scalar, need "name" .scalar, may "title" .scalar, need "value" .scalar]
    ++ (if type = some "Compared" then [need "reference" .scalar] else [])
    ++ [need "chart" (.list .scalar)]

/-- The members a type declares, in order of declaration.  The tags of a value say
which variant it is. -/
def Section.fields (v : Json) : Section → List Field
  | .document =>
    [need "project" (.record .project), may "screening" (.record .screening),
     may "quality_assess" (.record .quality), need "category" (.list (.record .category)),
     may "reporting" (.list (.record .report))]
  | .project => [need "short_name" .scalar, need "name" .scalar, may "description" .scalar]
  | .screening =>
    [need "review_per_paper" .scalar, need "conflict_type" .scalar,
     need "conflict_resolution" .scalar, need "exclusion_criteria" (.list (.record .entry)),
     may "source_papers" (.list (.record .entry)), may "search_strategy" (.list (.record .entry)),
     may "validation_percentage" .scalar, may "validation_assignment_mode" .scalar,
     may "phases" (.list (.record .phase))]
  | .entry => [need "name" .scalar]
  | .phase => [need "title" .scalar, may "description" .scalar, may "fields" (.list .scalar)]
  | .quality =>
    [need "question" (.list .scalar), need "response" (.list (.record .response)),
     need "min_score" .real]
  | .response => [need "title" .scalar, need "score" .real]
  | .report => reportFields (tagText v "report_type")
  | .category => categoryFields (tagText v "category_type") (tagText v "dynamic_subtype")

/-- The members that are declared at a place. -/
def Slot.fields (v : Json) : Slot → List Field
  | .record s => s.fields v
  | .scalar | .real | .payload | .list _ => []

/-- What stands at the elements of a list. -/
def Slot.item : Slot → Slot
  | .list item => item
  | .scalar | .real | .payload | .record _ => .scalar

/-- The declared member of a key. -/
def fieldOf (fields : List Field) (key : String) : Option Field :=
  fields.find? (·.key == key)

/-- The layout declares the fields of the types, in their order, and in front of them the
tags of the unions. -/
theorem keys_fields (v : Json) :
    (Section.fields v .document).map (·.key) = ReviewProtocol.type.fields ∧
      (Section.fields v .project).map (·.key) = ProjectSection.type.fields ∧
      (Section.fields v .screening).map (·.key) = ScreeningSection.type.fields ∧
      (Section.fields v .entry).map (·.key) = NamedEntry.type.fields ∧
      (Section.fields v .phase).map (·.key) = PhaseSection.type.fields ∧
      (Section.fields v .quality).map (·.key) = QualitySection.type.fields ∧
      (Section.fields v .response).map (·.key) = ResponseSection.type.fields :=
  ⟨rfl, rfl, rfl, rfl, rfl, rfl, rfl⟩

theorem keys_reportFields :
    (reportFields (some "Simple")).map (·.key) =
        Report.union.tag :: Report.simpleType.fields ∧
      (reportFields (some "Compared")).map (·.key) =
        Report.union.tag :: Report.comparedType.fields :=
  ⟨rfl, rfl⟩

theorem keys_categoryFields (subtype : Option String) :
    (categoryFields (some "Simple") subtype).map (·.key) =
        Category.union.tag :: Category.simpleType.fields ∧
      (categoryFields (some "List") subtype).map (·.key) =
        Category.union.tag :: Category.listType.fields ∧
      (categoryFields (some "DynamicList") (some "Independent")).map (·.key) =
        Category.union.tag :: Category.dynamicUnion.tag :: Category.independentType.fields ∧
      (categoryFields (some "DynamicList") (some "Dependent")).map (·.key) =
        Category.union.tag :: Category.dynamicUnion.tag :: Category.dependentType.fields :=
  ⟨rfl, rfl, rfl, rfl⟩

/-- What is declared of a category whatever its tags say. -/
def commonFields : List Field := need "category_type" .scalar :: node [] []

theorem fieldOf_common {f : Field} (mem : f ∈ commonFields) (v : Json) :
    fieldOf (Section.fields v .category) f.key = some f := by
  revert mem f
  show ∀ f ∈ commonFields, fieldOf (categoryFields _ _) f.key = some f
  unfold categoryFields
  split
  · decide
  · decide
  · split <;> decide
  · decide

/-- The value is left out where it stands for nothing. -/
def Field.drops (f : Field) (v : Json) : Bool := f.optional && decide (v = .null)

theorem Field.drops_iff {f : Field} {v : Json} :
    f.drops v = true ↔ f.optional = true ∧ v = .null := by
  rw [drops, Bool.and_eq_true, decide_eq_true_eq]

theorem Field.drops_of_ne {f : Field} {v : Json} (present : v ≠ .null) : f.drops v = false :=
  Bool.eq_false_iff.2 fun dropped => present (drops_iff.1 dropped).2

theorem Field.drops_of_needed {f : Field} (needed : f.optional = false) (v : Json) :
    f.drops v = false := by
  rw [drops, needed, Bool.false_and]

/-! ## §2. Taking out what is not declared. -/

mutual

/-- Of objects only declared members are kept, those that are null and might as well
be absent left out; reals become doubles.  Payloads stay as they are. -/
def prune : Json → Slot → Json
  | .object members, slot =>
    if slot = .payload then .object members
    else .object (pruneMembers members (slot.fields (.object members)))
  | .list items, slot =>
    if slot = .payload then .list items else .list (pruneItems items slot.item)
  | .number n, slot => if slot = .real then .number (.float (Decoder.doubleOf n)) else .number n
  | .null, _ => .null
  | .bool b, _ => .bool b
  | .text s, _ => .text s

/-- What is left of the elements of a list. -/
def pruneItems : List Json → Slot → List Json
  | [], _ => []
  | v :: rest, item => prune v item :: pruneItems rest item

/-- What is left of the members of an object. -/
def pruneMembers : List (String × Json) → List Field → List (String × Json)
  | [], _ => []
  | (key, v) :: rest, fields =>
    match fieldOf fields key with
    | some f =>
      if f.drops v then pruneMembers rest fields
      else (key, prune v f.slot) :: pruneMembers rest fields
    | none => pruneMembers rest fields

end

/-- What is left of the value of a declared member. -/
def Field.keep (f : Field) (v : Json) : Option Json :=
  if f.drops v then none else some (prune v f.slot)

section Pruning

variable {members : List (String × Json)} {fields : List Field} {slot : Slot} {v : Json}

theorem prune_object (members : List (String × Json)) (slot : Slot) :
    prune (.object members) slot =
      if slot = .payload then .object members
      else .object (pruneMembers members (slot.fields (.object members))) := rfl

theorem prune_list (items : List Json) (slot : Slot) :
    prune (.list items) slot =
      if slot = .payload then .list items else .list (pruneItems items slot.item) := rfl

theorem prune_number (n : Number) (slot : Slot) :
    prune (.number n) slot =
      if slot = .real then .number (.float (Decoder.doubleOf n)) else .number n := rfl

theorem pruneMembers_cons (key : String) (v : Json) (rest : List (String × Json))
    (fields : List Field) :
    pruneMembers ((key, v) :: rest) fields =
      match fieldOf fields key with
      | some f =>
        if f.drops v then pruneMembers rest fields
        else (key, prune v f.slot) :: pruneMembers rest fields
      | none => pruneMembers rest fields := rfl

theorem pruneItems_eq_map (items : List Json) (item : Slot) :
    pruneItems items item = items.map fun v => prune v item := by
  induction items with
  | nil => rfl
  | cons v rest ih => rw [pruneItems, ih, List.map_cons]

/-- The keys that are left stand in their order. -/
theorem keys_pruneMembers :
    ((pruneMembers members fields).map (·.1)).Sublist (members.map (·.1)) := by
  induction members with
  | nil => exact List.Sublist.refl _
  | cons m rest ih =>
    obtain ⟨k, v⟩ := m
    rw [pruneMembers_cons]
    split
    · split
      · exact ih.cons k
      · exact ih.cons_cons k
    · exact ih.cons k

/-- What is left is what was there, pruned. -/
theorem mem_pruneMembers {m : String × Json} (h : m ∈ pruneMembers members fields) :
    ∃ f v, (m.1, v) ∈ members ∧ m.2 = prune v (Field.slot f) := by
  induction members with
  | nil => cases h
  | cons l rest ih =>
    obtain ⟨k, v⟩ := l
    have later : m ∈ pruneMembers rest fields →
        ∃ f w, (m.1, w) ∈ (k, v) :: rest ∧ m.2 = prune w (Field.slot f) := by
      intro mem
      obtain ⟨f, w, there, same⟩ := ih mem
      exact ⟨f, w, List.mem_cons_of_mem _ there, same⟩
    rw [pruneMembers_cons] at h
    split at h
    next f declared =>
      split at h
      · exact later h
      · rcases List.mem_cons.1 h with rfl | h
        · exact ⟨f, v, List.mem_cons_self, rfl⟩
        · exact later h
    next => exact later h

/-- Under distinct keys a member is left exactly when it is declared and not dropped. -/
theorem lookup_pruneMembers (distinct : (members.map (·.1)).Nodup) (key : String) :
    (pruneMembers members fields).lookup key =
      (fieldOf fields key).bind fun f => (members.lookup key).bind f.keep := by
  induction members with
  | nil =>
    show none = _
    cases fieldOf fields key <;> rfl
  | cons m rest ih =>
    obtain ⟨k, v⟩ := m
    rw [List.map_cons, List.nodup_cons] at distinct
    rw [pruneMembers_cons, lookup_cons_ite]
    by_cases here : key = k
    · subst here
      -- the key does not occur again
      have fresh : rest.lookup key = none := by
        cases found : rest.lookup key with
        | none => rfl
        | some w => exact absurd (List.mem_map_of_mem (mem_of_lookup found)) distinct.1
      have gone : (pruneMembers rest fields).lookup key = none := by
        rw [ih distinct.2, fresh]
        cases fieldOf fields key <;> rfl
      rw [if_pos rfl]
      cases declared : fieldOf fields key with
      | none => exact gone
      | some f =>
        show List.lookup key (if f.drops v = true then _ else _) = f.keep v
        unfold Field.keep
        split
        · exact gone
        · rw [lookup_cons_ite, if_pos rfl]
    · rw [if_neg here, ← ih distinct.2]
      split
      · split
        · rfl
        · rw [lookup_cons_ite, if_neg here]
      · rfl

/-- A test that a list of keys passes when a longer one does is passed by what is left
of a value, if the value passed it. -/
theorem every_prune {keys : List String → Bool}
    (shorter : ∀ some all : List String, some.Sublist all → keys all = true → keys some = true)
    (h : v.every Number.isProper keys = true) :
    (prune v slot).every Number.isProper keys = true := by
  induction v using depth_induction generalizing slot with
  | step v ih =>
    cases v with
    | object members =>
      rw [prune_object]
      split
      · exact h
      · rw [every_object_iff] at h ⊢
        refine ⟨shorter _ _ keys_pruneMembers h.1, fun m mem => ?_⟩
        -- what is left under a key stood under it before, a level further in
        obtain ⟨f, w, there, same⟩ := mem_pruneMembers mem
        rw [same]
        exact ih w (depth_member_lt there) (h.2 _ there)
    | list items =>
      rw [prune_list]
      split
      · exact h
      · rw [pruneItems_eq_map, every_list_iff]
        intro w mem
        obtain ⟨u, there, rfl⟩ := List.mem_map.1 mem
        exact ih u (depth_item_lt there) (every_list_iff.1 h u there)
    | number n =>
      rw [prune_number]
      split
      · cases n with
        | int i => exact Decimal.Double.isFinite_ofInt i
        | float x => exact h
      · exact h
    | null | bool b | text s => rfl

theorem isProper_prune (proper : v.IsProper) : (prune v slot).IsProper :=
  every_prune (fun _ _ sub nodup => by simpa using (of_decide_eq_true nodup).sublist sub) proper

theorem isOrdered_prune (ordered : v.IsOrdered) : (prune v slot).IsOrdered :=
  every_prune (fun _ _ sub sorted => by simpa using (of_decide_eq_true sorted).sublist sub) ordered

/-- What is left of an object is found by its keys. -/
theorem get?_prune (proper : v.IsProper) (plain : slot ≠ .payload) (key : String) :
    (prune v slot).get? key =
      (fieldOf (slot.fields v) key).bind fun f => (v.get? key).bind f.keep := by
  cases v with
  | object members =>
    rw [prune_object, if_neg plain]
    exact lookup_pruneMembers (isProper_object_iff.1 proper).1 key
  | number n =>
    rw [prune_number]
    split <;> cases fieldOf (slot.fields (.number n)) key <;> rfl
  | list items =>
    rw [prune_list, if_neg plain]
    cases fieldOf (slot.fields (.list items)) key <;> rfl
  | null => cases fieldOf (slot.fields .null) key <;> rfl
  | bool b => cases fieldOf (slot.fields (.bool b)) key <;> rfl
  | text s => cases fieldOf (slot.fields (.text s)) key <;> rfl

end Pruning

/-! ## §3. Canonical forms. -/

/-- What is left of a value at a place, members by ascending key. -/
def canon (slot : Slot) (v : Json) : Json := (prune v slot).normalize

/-- What stands under a declared key of a canonical form. -/
def Field.canon (f : Field) (v : Json) : Option Json :=
  if f.drops v then none else some (Layout.canon f.slot v)

section Canonical

variable {slot : Slot} {v w : Json} {key : String}

theorem isOrdered_canon (proper : v.IsProper) : (canon slot v).IsOrdered :=
  isOrdered_normalize (isProper_prune proper).hasProperNumbers

theorem isProper_canon (proper : v.IsProper) : (canon slot v).IsProper :=
  (isOrdered_canon proper).isProper

/-- Nothing is left to sort in what is left of an ordered value. -/
theorem canon_of_isOrdered (ordered : v.IsOrdered) : canon slot v = prune v slot :=
  normalize_of_isOrdered (isOrdered_prune ordered)

theorem canon_text (s : String) : canon slot (.text s) = .text s := rfl

theorem canon_number {n : Number} (exact : slot ≠ .real) : canon slot (.number n) = .number n := by
  rw [canon, prune_number, if_neg exact, Json.normalize]

theorem canon_payload (v : Json) : canon .payload v = v.normalize := by
  cases v <;> rfl

theorem canon_list (plain : slot ≠ .payload) (items : List Json) :
    canon slot (.list items) = .list (items.map (canon slot.item)) := by
  rw [canon, prune_list, if_neg plain, pruneItems_eq_map, Json.normalize, normalizeItems_eq_map,
    List.map_map]
  rfl

theorem canon_listOf (item : Slot) (items : List Json) :
    canon (.list item) (.list items) = .list (items.map (canon item)) :=
  canon_list (show Slot.list item ≠ .payload from nofun) items

theorem canon_eq_null_iff : canon slot v = .null ↔ v = .null := by
  cases v with
  | object members =>
    rw [canon, prune_object]
    split <;> simp [Json.normalize]
  | list items =>
    rw [canon, prune_list]
    split <;> simp [Json.normalize]
  | number n =>
    rw [canon, prune_number]
    split <;> simp [Json.normalize]
  | null | bool b | text s => simp [canon, prune, Json.normalize]

/-- **A canonical form has the declared members, in their canonical forms, and no
others.** -/
theorem get?_canon (proper : v.IsProper) (plain : slot ≠ .payload) (key : String) :
    (canon slot v).get? key =
      (fieldOf (slot.fields v) key).bind fun f => (v.get? key).bind f.canon := by
  -- sorting leaves every member under its key
  have sorted : (canon slot v).get? key = ((prune v slot).get? key).map Json.normalize :=
    get?_normalize (isProper_prune proper) key
  rw [sorted, get?_prune proper plain]
  cases fieldOf (slot.fields v) key with
  | none => rfl
  | some f =>
    cases v.get? key with
    | none => rfl
    | some w =>
      simp only [Option.bind_some, Field.keep, Field.canon]
      split <;> rfl

/-- Under a declared key a canonical record has what is kept of the member there. -/
theorem get?_canon_declared {type : Section} {f : Field} (proper : v.IsProper)
    (declared : fieldOf (type.fields v) key = some f) :
    (canon (.record type) v).get? key = (v.get? key).bind f.canon := by
  rw [get?_canon proper (Slot.record_ne_payload type)]
  show (fieldOf (type.fields v) key).bind _ = _
  rw [declared, Option.bind_some]

end Canonical

end LiteratureReview.Layout
