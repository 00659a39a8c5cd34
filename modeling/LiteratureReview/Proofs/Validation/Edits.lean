/-
  LiteratureReview.Proofs.Validation.Edits
  ────────────────────────────────────────
  What can be changed in a document without the validator noticing.

  Members that no type declares may come and go, in any object that is not
  inside a payload, and where a member is optional null may be written for
  it or not.  Such an edit touches nothing that is left of a document when
  it is pruned (`prune_eq_of_edit`), whence documents that are edited into
  each other have one canonical form; and the validator sees no more.
-/
import LiteratureReview.Proofs.Validation.WritingBack
import Mathlib.Logic.Relation

namespace LiteratureReview.Layout

open Json

variable {slot : Slot} {v w : Json} {key : String} {fields : List Field}

/-! ## §1. Edits. -/

/-- The record types of a protocol. -/
def declaredTypes : List RecordType :=
  [ReviewProtocol.type, ProjectSection.type, ScreeningSection.type, NamedEntry.type,
   PhaseSection.type, QualitySection.type, ResponseSection.type, Report.simpleType,
   Report.comparedType, Category.simpleType, Category.listType, Category.independentType,
   Category.dependentType]

/-- Every key that a type or a tag declares, wherever it does. -/
def declaredKeys : List String :=
  [Report.union.tag, Category.union.tag, Category.dynamicUnion.tag]
    ++ declaredTypes.flatMap fun t => t.fields

/-- What stands under a key of a value at a slot; no more than a scalar is expected where
nothing is declared. -/
def Slot.under (slot : Slot) (v : Json) (key : String) : Slot :=
  ((fieldOf (slot.fields v) key).map (·.slot)).getD .scalar

/-- One edit: the second value has a member more than the first, which nothing depends on,
or the two differ so further in. -/
inductive Edit : Slot → Json → Json → Prop where
  /-- A member that no type declares. -/
  | stray {slot : Slot} {front back : List (String × Json)} {key : String} {w : Json}
      (outside : slot ≠ .payload) (undeclared : key ∉ declaredKeys) :
      Edit slot (.object (front ++ back)) (.object (front ++ (key, w) :: back))
  /-- A null under an optional member of the type at this place. -/
  | nulled {type : Section} {front back : List (String × Json)} {key : String} {f : Field}
      (declared : fieldOf (type.fields (.object (front ++ back))) key = some f)
      (optional : f.optional = true) :
      Edit (.record type) (.object (front ++ back)) (.object (front ++ (key, .null) :: back))
  /-- An edit inside a member. -/
  | member {slot : Slot} {front back : List (String × Json)} {key : String} {x y : Json}
      (outside : slot ≠ .payload)
      (inner : Edit (slot.under (.object (front ++ (key, x) :: back)) key) x y) :
      Edit slot (.object (front ++ (key, x) :: back)) (.object (front ++ (key, y) :: back))
  /-- An edit inside an element. -/
  | element {slot : Slot} {front back : List Json} {x y : Json} (outside : slot ≠ .payload)
      (inner : Edit slot.item x y) :
      Edit slot (.list (front ++ x :: back)) (.list (front ++ y :: back))

/-- The documents are edited into each other, in any number of edits either way. -/
def Edited : Json → Json → Prop := Relation.EqvGen (Edit (.record .document))

/-! ## §2. What an edit leaves alone. -/

/-- Every member that is declared anywhere. -/
def allFields : List Field :=
  ([Section.document, .project, .screening, .entry, .phase, .quality, .response].flatMap
      (Section.fields .null))
    ++ reportFields (some "Compared") ++ categoryFields none none
    ++ categoryFields (some "Simple") none ++ categoryFields (some "List") none
    ++ categoryFields (some "DynamicList") (some "Independent")
    ++ categoryFields (some "DynamicList") (some "Dependent")

/-- What is declared at a place is declared somewhere. -/
theorem mem_allFields {f : Field} (mem : f ∈ slot.fields v) : f ∈ allFields := by
  have report : ∀ type, ∀ f ∈ reportFields type, f ∈ allFields := by
    intro type
    unfold reportFields
    split <;> decide
  have category : ∀ type subtype, ∀ f ∈ categoryFields type subtype, f ∈ allFields := by
    intro type subtype
    unfold categoryFields
    split
    · decide
    · decide
    · split <;> decide
    · decide
  have flat : ∀ type : Section, ∀ f ∈ type.fields .null, f ∈ allFields := by
    intro type
    cases type <;> decide
  -- the other types are the same whatever the value
  have others : ∀ type : Section, type = .report ∨ type = .category ∨
      type.fields v = type.fields .null := by
    intro type
    cases type <;> first | exact .inr (.inr rfl) | exact .inl rfl | exact .inr (.inl rfl)
  cases slot with
  | record type =>
    rcases others type with rfl | rfl | same
    · exact report _ f mem
    · exact category _ _ f mem
    · exact flat type f (same ▸ mem)
  | _ => cases mem

theorem key_mem_declaredKeys {f : Field} (mem : f ∈ slot.fields v) : f.key ∈ declaredKeys := by
  have all : ∀ f ∈ allFields, f.key ∈ declaredKeys := by decide
  exact all f (mem_allFields mem)

theorem fieldOf_eq_some {f : Field} (declared : fieldOf fields key = some f) :
    f ∈ fields ∧ f.key = key := by
  have same : (f.key == key) = true := List.find?_some (p := fun g : Field => g.key == key) declared
  exact ⟨List.mem_of_find?_eq_some declared, eq_of_beq same⟩

/-- What no type declares is declared nowhere. -/
theorem fieldOf_eq_none (undeclared : key ∉ declaredKeys) : fieldOf (slot.fields v) key = none := by
  refine List.find?_eq_none.2 fun f mem same => undeclared ?_
  rw [← eq_of_beq same]
  exact key_mem_declaredKeys mem

/-- The tags, which say what is declared. -/
def tagKeys : List String := [Report.union.tag, Category.union.tag, Category.dynamicUnion.tag]

/-- Only the tags of a value have a say in what is declared of it. -/
theorem fields_congr (same : ∀ tag ∈ tagKeys, tagText v tag = tagText w tag) :
    slot.fields v = slot.fields w := by
  cases slot with
  | record type =>
    show type.fields v = type.fields w
    cases type with
    | report => rw [Section.fields, Section.fields, same "report_type" (by decide)]
    | category =>
      rw [Section.fields, Section.fields, same "category_type" (by decide),
        same "dynamic_subtype" (by decide)]
    | _ => rfl
  | _ => rfl

/-- No tag is optional. -/
theorem not_mem_tagKeys (slot : Slot) {f : Field} (declared : fieldOf (slot.fields v) key = some f)
    (optional : f.optional = true) : key ∉ tagKeys := by
  have all : ∀ f ∈ allFields, f.optional = true → f.key ∉ tagKeys := by decide
  obtain ⟨mem, rfl⟩ := fieldOf_eq_some declared
  exact all f (mem_allFields mem) optional

section Members

variable {front back : List (String × Json)} {x y : Json}

/-- A member more changes nothing under other keys. -/
theorem tagText_insert {tag : String} (other : key ≠ tag) :
    tagText (.object (front ++ back)) tag = tagText (.object (front ++ (key, w) :: back)) tag := by
  have same : (front ++ (key, w) :: back).lookup tag = (front ++ back).lookup tag := by
    rw [List.lookup_append, List.lookup_append, List.lookup_cons, beq_false_of_ne (Ne.symm other)]
  rw [tagText, tagText, get?, get?, same]

/-- Members that hold no texts are the same to whoever looks for texts. -/
theorem tagText_replace {tag : String} (same : x.asText? = y.asText?) :
    tagText (.object (front ++ (key, x) :: back)) tag =
      tagText (.object (front ++ (key, y) :: back)) tag := by
  rw [tagText, tagText, get?, get?, List.lookup_append, List.lookup_append, List.lookup_cons,
    List.lookup_cons]
  cases front.lookup tag with
  | some w => rfl
  | none =>
    cases tag == key with
    | false => rfl
    | true => exact same

theorem pruneMembers_append :
    pruneMembers (front ++ back) fields =
      pruneMembers front fields ++ pruneMembers back fields := by
  induction front with
  | nil => rfl
  | cons m rest ih =>
    obtain ⟨k, v⟩ := m
    rw [List.cons_append, pruneMembers, pruneMembers]
    split
    · split
      · exact ih
      · rw [ih, List.cons_append]
    · exact ih

/-- A member that is not kept is as good as none. -/
theorem pruneMembers_insert (gone : ∀ f, fieldOf fields key = some f → f.drops w = true) :
    pruneMembers (front ++ (key, w) :: back) fields = pruneMembers (front ++ back) fields := by
  rw [pruneMembers_append, pruneMembers_append, pruneMembers]
  congr 1
  split
  next f declared => rw [if_pos (gone f declared)]
  next => rfl

theorem pruneMembers_replace
    (same : ∀ f, fieldOf fields key = some f → f.drops x = f.drops y ∧
      prune x f.slot = prune y f.slot) :
    pruneMembers (front ++ (key, x) :: back) fields =
      pruneMembers (front ++ (key, y) :: back) fields := by
  rw [pruneMembers_append, pruneMembers_append, pruneMembers, pruneMembers]
  congr 1
  split
  next f declared => rw [(same f declared).1, (same f declared).2]
  next => rfl

end Members

/-- Only lists and objects are edited. -/
theorem Edit.inside (edit : Edit slot v w) :
    v.asText? = w.asText? ∧ v ≠ .null ∧ w ≠ .null := by
  cases edit <;> exact ⟨rfl, nofun, nofun⟩

/-- **An edit changes nothing that is left of a value.** -/
theorem prune_eq_of_edit (edit : Edit slot v w) : prune v slot = prune w slot := by
  induction edit with
  | @stray slot front back key w outside undeclared =>
    -- what no type declares is no tag
    have fields : slot.fields (.object (front ++ back)) =
        slot.fields (.object (front ++ (key, w) :: back)) := by
      refine fields_congr fun tag mem => tagText_insert ?_
      rintro rfl
      exact undeclared (List.mem_append_left _ mem)
    rw [prune, prune, if_neg outside, if_neg outside, ← fields, pruneMembers_insert]
    intro f declared
    rw [fieldOf_eq_none undeclared] at declared
    cases declared
  | @nulled type front back key f declared optional =>
    have plain := Slot.record_ne_payload type
    -- nor is what is optional
    have fields : (Slot.record type).fields (.object (front ++ back)) =
        (Slot.record type).fields (.object (front ++ (key, .null) :: back)) := by
      refine fields_congr fun tag mem => tagText_insert ?_
      rintro rfl
      exact not_mem_tagKeys (.record type) declared optional mem
    rw [prune, prune, if_neg plain, if_neg plain, ← fields, pruneMembers_insert]
    intro g found
    obtain rfl := Option.some.inj (declared.symm.trans found)
    exact Field.drops_iff.2 ⟨optional, rfl⟩
  | @member slot front back key x y outside inner ih =>
    obtain ⟨text, left, right⟩ := inner.inside
    -- an edit is of lists and objects, and a tag is a text
    have fields : slot.fields (.object (front ++ (key, x) :: back)) =
        slot.fields (.object (front ++ (key, y) :: back)) :=
      fields_congr fun _ _ => tagText_replace text
    rw [prune, prune, if_neg outside, if_neg outside, ← fields, pruneMembers_replace]
    intro f declared
    refine ⟨by rw [Field.drops_of_ne left, Field.drops_of_ne right], ?_⟩
    rwa [Slot.under, declared] at ih
  | @element slot front back x y outside inner ih =>
    rw [prune, prune, if_neg outside, if_neg outside, pruneItems_eq_map, pruneItems_eq_map,
      List.map_append, List.map_append, List.map_cons, List.map_cons, ih]

theorem canon_eq_of_edited (edited : Edited v w) :
    canon (.record .document) v = canon (.record .document) w := by
  induction edited with
  | rel v w edit => rw [canon, canon, prune_eq_of_edit edit]
  | refl v => rfl
  | symm v w _ ih => exact ih.symm
  | trans u v w _ _ first second => exact first.trans second

end LiteratureReview.Layout

namespace LiteratureReview.Validator

open Json Layout

variable {v w : Json}

/-! ## §3. What the validator sees of an edit. -/

/-- **The validator does not notice edits.**  Documents that are edited into each other are
accepted together, as the same protocol; and if both are refused before they are decoded, the
same places are reported in the same order. -/
theorem validate_of_edited (edited : Edited v w) (proper : v.IsProper) (proper' : w.IsProper) :
    (∀ p, validate v = .ok p ↔ validate w = .ok p) ∧
      (∀ e e', validate v = .error e → validate w = .error e' → errors v ≠ [] → errors w ≠ [] →
        e.errors.map (·.path) = e'.errors.map (·.path)) := by
  have same := canon_eq_of_edited edited
  constructor
  · intro p
    rw [← validate_canon_iff proper, ← validate_canon_iff proper', same]
  · intro e e' refused refused' unclean unclean'
    obtain rfl := Except.error.inj (refused.symm.trans (validate_of_unclean unclean))
    obtain rfl := Except.error.inj (refused'.symm.trans (validate_of_unclean unclean'))
    rw [← paths_errors_canon proper, ← paths_errors_canon proper', same]

/-- The small document with two members that are not declared and a null. -/
def strayDocument (letters : Number) : Json :=
  .object
    [("$schema", .text "protocol"), ("reporting", .null),
     ("category", .list [.object
       [("unit", .text "mg"), ("category_type", .text "Simple"), ("mandatory", .bool true),
        ("max_char", .number letters), ("name", .text "dose"), ("type", .text "int")]]),
     ("project", .object [("name", .text "A review"), ("short_name", .text "Review")])]

theorem edited_strayDocument (letters : Number) :
    Edited (smallDocument letters) (strayDocument letters) := by
  have unit : Edit (.record .document) (smallDocument letters) _ :=
    @Edit.member _ [] _ _ _ _ nofun
      (@Edit.element _ [] [] _ _ nofun
        (@Edit.stray (.record .category) [] _ "unit" (.text "mg") nofun (by decide)))
  have null := @Edit.nulled .document []
    [("category", .list [.object
       [("unit", .text "mg"), ("category_type", .text "Simple"), ("mandatory", .bool true),
        ("max_char", .number letters), ("name", .text "dose"), ("type", .text "int")]]),
     ("project", .object [("name", .text "A review"), ("short_name", .text "Review")])]
    "reporting" _ rfl rfl
  have schema := @Edit.stray (.record .document) []
    [("reporting", .null),
     ("category", .list [.object
       [("unit", .text "mg"), ("category_type", .text "Simple"), ("mandatory", .bool true),
        ("max_char", .number letters), ("name", .text "dose"), ("type", .text "int")]]),
     ("project", .object [("name", .text "A review"), ("short_name", .text "Review")])]
    "$schema" (.text "protocol") nofun (by decide)
  exact .trans _ _ _ (.rel _ _ unit) (.trans _ _ _ (.rel _ _ null) (.rel _ _ schema))

theorem errors_smallDocument_one : errors (smallDocument (.int 1)) = [] := by
  rw [errors, grammarErrors, ProtocolGrammar.grammar_eq]
  decide +kernel

/-- One letter is accepted, and none is refused at the same place, with the stray members
and without. -/
theorem validate_strayDocument :
    (∃ p, validate (smallDocument (.int 1)) = .ok p ∧ validate (strayDocument (.int 1)) = .ok p) ∧
      ∃ e e', validate (smallDocument (.int 0)) = .error e ∧
        validate (strayDocument (.int 0)) = .error e' ∧
          e.errors.map (·.path) = e'.errors.map (·.path) := by
  obtain ⟨p, accepted⟩ : ∃ p, validate (smallDocument (.int 1)) = .ok p :=
    (validate_iff_of_errors errors_smallDocument_one).2 ⟨_, rfl⟩
  refine ⟨⟨p, accepted, ?_⟩, ?_⟩
  · exact ((validate_of_edited (edited_strayDocument (.int 1)) (by decide) (by decide)).1 p).1
      accepted
  · have unclean : errors (smallDocument (.int 0)) ≠ [] := by
      rw [errors, grammarErrors, ProtocolGrammar.grammar_eq]
      decide +kernel
    have unclean' : errors (strayDocument (.int 0)) ≠ [] := by
      rw [errors, grammarErrors, ProtocolGrammar.grammar_eq]
      decide +kernel
    have refused := validate_of_unclean unclean
    have refused' := validate_of_unclean unclean'
    exact ⟨_, _, refused, refused',
      (validate_of_edited (edited_strayDocument (.int 0)) (by decide) (by decide)).2 _ _ refused
        refused' unclean unclean'⟩

end LiteratureReview.Validator
