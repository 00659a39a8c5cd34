/-
  LiteratureReview.Proofs.Validation.Canonical
  ────────────────────────────────────────────
  The grammar cannot tell a document from its canonical form.

  Every schema of the grammar asks a value for members its type declares, and
  takes null for absence where the layout says so; so the value and its
  canonical form are alike to it (`Blind`).  Scalars are seen by their shape,
  lists by their elements, records by their members, and tagged unions by the
  tag and what it selects.

    • `blind_category` — categories, by induction on depth,
    • `map_outline_violations` — documents: the same things are broken at the
      same places, in the same order.
-/
import LiteratureReview.Proofs.Protocol.Layout
import LiteratureReview.Proofs.Schema.Outline
import LiteratureReview.Proofs.Schema.ProtocolGrammar
import LiteratureReview.Proofs.Schema.Unfolding

namespace LiteratureReview

open Json Grammar Layout Schema

variable {resolve : Resolver} {slot : Slot} {s : Schema} {v w : Json}

/-! ## §1. Scalars and lists. -/

/-- To the schema every value is like its canonical form at the slot. -/
def Layout.Blind (resolve : Resolver) (slot : Slot) (s : Schema) : Prop :=
  ∀ v, v.IsProper → Alike resolve s v (canon slot v)

theorem sameShape_canon (exact : slot ≠ .real) (v : Json) : SameShape v (canon slot v) := by
  cases v with
  | null => exact .null
  | bool b => exact .bool b
  | number n =>
    rw [canon_number exact]
    exact .number n
  | text s => exact .text s
  | list items =>
    by_cases payload : slot = .payload
    · subst payload
      rw [canon_payload, Json.normalize, normalizeItems_eq_map]
      exact .list (List.length_map _).symm
    · rw [canon_list payload]
      exact .list (List.length_map _).symm
  | object members =>
    rw [canon, prune]
    split <;> exact .object

theorem blind_scalar (plain : isShallow s = true) : Blind resolve .scalar s :=
  fun v _ => alike_of_sameShape (sameShape_canon (by nofun) v) s plain

/-- A number is a number, as a double as well. -/
theorem blind_real : Blind resolve .real numeric := by
  intro v _
  cases v with
  | number n => exact alike_numeric n _
  | list items =>
    exact alike_of_sameShape (.list (by simp [pruneItems_eq_map, normalizeItems_eq_map])) _ rfl
  | object members => exact alike_of_sameShape .object _ rfl
  | null | bool b | text s => exact Alike.refl _ _

theorem blind_always (slot : Slot) : Blind resolve slot .always := fun _ _ _ => rfl

/-- Every element is like its canonical form when the elements of such lists are. -/
theorem forall₂_canon
    (each : ∀ w, w.IsProper → w.depth < v.depth → Alike resolve s w (canon slot w))
    (proper : v.IsProper) : ∀ items items', v = .list items → canon (.list slot) v = .list items' →
      List.Forall₂ (Alike resolve s) items items' := by
  rintro items items' rfl same
  rw [canon_listOf] at same
  obtain rfl := Json.list.inj same
  rw [List.forall₂_map_right_iff]
  refine List.forall₂_same.2 fun w mem => ?_
  exact each w (isProper_list_iff.1 proper w mem) (depth_item_lt mem)

theorem blind_listOf (least : Nat) (h : Blind resolve slot s) :
    Blind resolve (.list slot) (listOf least s) := fun v proper =>
  alike_listOf (sameShape_canon (by nofun) v) (forall₂_canon (fun w hw _ => h w hw) proper) least

theorem blind_anyListOrNull (h : Blind resolve slot s) :
    Blind resolve (.list slot) (anyListOrNull s) := fun v proper =>
  alike_anyListOrNull (sameShape_canon (by nofun) v) (forall₂_canon (fun w hw _ => h w hw) proper)

theorem blind_reference {name : String} (h : Blind resolve slot (.ref name)) :
    Blind resolve slot (reference name) := fun v proper => alike_reference (h v proper)

theorem blind_referenceOrNull {name : String} (exact : slot ≠ .real)
    (h : Blind resolve slot (.ref name)) : Blind resolve slot (referenceOrNull name) :=
  fun v proper => alike_referenceOrNull (sameShape_canon exact v) (h v proper)

/-! ## §2. Records. -/

/-- A schema for the members under a key sees nothing but their canonical form, and has no
objection to null where null stands for absence. -/
def Sees (resolve : Resolver) (fields : List Field) (v : Json) (m : String × Schema) : Prop :=
  ∃ f, fieldOf fields m.1 = some f ∧
    (∀ w, v.get? m.1 = some w → Alike resolve m.2 w (canon f.slot w)) ∧
      (f.optional = true → ∀ p, violations resolve m.2 p .null = [])

theorem sees_need {fields : List Field} {key : String} (proper : v.IsProper)
    (found : fieldOf fields key = some (need key slot)) (h : Blind resolve slot s) :
    Sees resolve fields v (key, s) :=
  ⟨_, found, fun w there => h w (proper.get? there), nofun⟩

theorem sees_may {fields : List Field} {key : String} (proper : v.IsProper)
    (found : fieldOf fields key = some (may key slot)) (h : Blind resolve slot s)
    (null : ∀ p, violations resolve s p .null = []) : Sees resolve fields v (key, s) :=
  ⟨_, found, fun w there => h w (proper.get? there), fun _ => null⟩

theorem Sees.alikeUnder {type : Section} {m : String × Schema} (proper : v.IsProper)
    (h : Sees resolve (type.fields v) v m) :
    AlikeUnder resolve m.2 (v.get? m.1) ((canon (.record type) v).get? m.1) := by
  obtain ⟨f, declared, each, null⟩ := h
  rw [get?_canon_declared proper declared]
  cases there : v.get? m.1 with
  | none => trivial
  | some w =>
    show AlikeUnder resolve m.2 (some w) (f.canon w)
    unfold Field.canon
    split
    next dropped =>
      -- what is dropped is null, to which the schema has no objection
      obtain ⟨optional, rfl⟩ := Field.drops_iff.1 dropped
      exact null optional
    next => exact each w there

/-- The keys are declared, and none of them may be null or left out. -/
def areNeeded (fields : List Field) (keys : List String) : Bool :=
  keys.all fun k => (fieldOf fields k).any fun f => !f.optional

/-- **A record is like its canonical form when its members are.** -/
theorem alike_record_canon {type : Section} {schemas : List (String × Schema)}
    {keys : List String} (proper : v.IsProper)
    (members : IsObject v → schemas.Forall (Sees resolve (type.fields v) v))
    (needed : IsObject v → areNeeded (type.fields v) keys = true) :
    Alike resolve (record schemas keys) v (canon (.record type) v) := by
  have shape : SameShape v (canon (.record type) v) := sameShape_canon (by nofun) v
  by_cases object : IsObject v
  · refine alike_record shape (fun m mem => ?_) fun k mem => ?_
    · exact (List.forall_iff_forall_mem.1 (members object) m mem).alikeUnder proper
    · obtain ⟨f, found, always⟩ :=
        Option.any_eq_true _ _ |>.1 (List.all_eq_true.1 (needed object) k mem)
      rw [get?_canon_declared proper found]
      -- what has to be there is not optional, and never dropped
      have kept : ∀ w, f.drops w = false := Field.drops_of_needed (by simpa using always)
      cases v.get? k <;> simp [Field.canon, kept]
  · exact alike_record_of_not_isObject shape object

/-! ## §3. Definitions of one level. -/

namespace ProtocolGrammar

/-- How far a definition of the grammar goes on about the same value. -/
def rank (name : String) : Nat :=
  if name = "Category" then 2
  else if name = "DynamicList" ∨ name = "Report" then 1
  else 0

theorem isRanked_document : document.IsRanked rank where
  lower := by decide
  bounded name := by
    unfold rank
    split
    · decide
    · split <;> decide

/-- A definition sees what its schema sees. -/
theorem alike_ref {name : String} (found : document.definitions.lookup name = some s)
    (h : Alike document.answer s v w) : Alike document.answer (.ref name) v w := by
  intro p
  rw [violations, violations, SchemaDocument.answer_eq isRanked_document found,
    SchemaDocument.answer_eq isRanked_document found]
  exact h p

theorem blind_ref {name : String} (found : document.definitions.lookup name = some s)
    (h : Blind document.answer slot s) : Blind document.answer slot (.ref name) :=
  fun v proper => alike_ref found (h v proper)

theorem blind_choice {name : String} {names : List String}
    (found : document.definitions.lookup name = some (oneOfTexts names)) :
    Blind document.answer .scalar (reference name) :=
  blind_reference <| blind_ref found <| blind_scalar <| by
    simp [oneOfTexts, isShallow, areShallow, isScalar]

theorem blind_conflictType : Blind document.answer .scalar (reference "ConflictType") :=
  blind_reference <| blind_ref rfl <| blind_scalar rfl

theorem blind_entry : Blind document.answer (.record .entry) (reference "NamedEntry") :=
  blind_reference <| blind_ref rfl fun _ proper =>
    alike_record_canon proper (fun _ => sees_need proper rfl (blind_scalar rfl)) fun _ => rfl

theorem blind_phase : Blind document.answer (.record .phase) (reference "PhaseDef") :=
  blind_reference <| blind_ref rfl fun _ proper =>
    alike_record_canon proper
      (fun _ => ⟨sees_may proper rfl (blind_scalar rfl) fun _ => rfl,
        sees_may proper rfl (blind_anyListOrNull (blind_scalar rfl)) fun _ => rfl,
        sees_need proper rfl (blind_scalar rfl)⟩)
      fun _ => rfl

theorem blind_project : Blind document.answer (.record .project) (reference "ProjectDef") :=
  blind_reference <| blind_ref rfl fun _ proper =>
    alike_record_canon proper
      (fun _ => ⟨sees_may proper rfl (blind_scalar rfl) fun _ => rfl,
        sees_need proper rfl (blind_scalar rfl), sees_need proper rfl (blind_scalar rfl)⟩)
      fun _ => rfl

theorem blind_screening :
    Blind document.answer (.record .screening) (.ref "ScreeningConfig") := by
  refine blind_ref rfl fun _ proper => alike_record_canon proper (fun _ => ?_) fun _ => rfl
  -- the schema has the keys in ascending order
  refine ⟨?resolution, ?conflict, ?criteria, ?phases, ?reviewers, ?strategy, ?papers, ?mode, ?share⟩
  case resolution => exact sees_need proper rfl (blind_choice rfl)
  case conflict => exact sees_need proper rfl blind_conflictType
  case criteria => exact sees_need proper rfl (blind_listOf 1 blind_entry)
  case phases => exact sees_may proper rfl (blind_anyListOrNull blind_phase) fun _ => rfl
  case reviewers => exact sees_need proper rfl (blind_scalar rfl)
  case strategy => exact sees_may proper rfl (blind_anyListOrNull blind_entry) fun _ => rfl
  case papers => exact sees_may proper rfl (blind_anyListOrNull blind_entry) fun _ => rfl
  case mode =>
    exact sees_may proper rfl
      (blind_referenceOrNull nofun (blind_ref rfl (blind_scalar rfl))) fun _ => rfl
  case share => exact sees_may proper rfl (blind_scalar rfl) fun _ => rfl

theorem blind_response : Blind document.answer (.record .response) (reference "QaResponse") :=
  blind_reference <| blind_ref rfl fun _ proper =>
    alike_record_canon proper
      (fun _ => ⟨sees_need proper rfl blind_real, sees_need proper rfl (blind_scalar rfl)⟩)
      fun _ => rfl

theorem blind_quality : Blind document.answer (.record .quality) (.ref "QaConfig") :=
  blind_ref rfl fun _ proper =>
    alike_record_canon proper
      (fun _ => ⟨sees_need proper rfl blind_real,
        sees_need proper rfl (blind_listOf 1 (blind_scalar rfl)),
        sees_need proper rfl (blind_listOf 1 blind_response)⟩)
      fun _ => rfl

/-! ## §4. Reports. -/

/-- A tag is a text, and stays what it is. -/
theorem sameUnder_canon {type : Section} {tag : String} (proper : v.IsProper)
    (declared : fieldOf (type.fields v) tag = some (need tag .scalar)) :
    SameUnder tag v (canon (.record type) v) := by
  have found := get?_canon_declared proper declared
  cases there : v.get? tag with
  | none => exact .missing there (by rw [found, there]; rfl)
  | some w => exact .there there (by rw [found, there]; rfl) (sameShape_canon (by nofun) w)

section Reports

variable (proper : v.IsProper)

include proper

theorem alike_simpleReport (tag : IsObject v → v.get? "report_type" = some (.text "Simple")) :
    Alike document.answer simpleReport v (canon (.record .report) v) := by
  have fields : IsObject v → Section.fields v .report = reportFields (some "Simple") :=
    fun object => congrArg reportFields (tagText_eq (tag object))
  refine alike_record_canon proper (fun object => ?_) fun object => ?_
  · rw [fields object]
    exact ⟨sees_need proper rfl (blind_listOf 1 (blind_choice rfl)),
      sees_need proper rfl (blind_scalar rfl), sees_may proper rfl (blind_scalar rfl) fun _ => rfl,
      sees_need proper rfl (blind_scalar rfl)⟩
  · rw [fields object]
    rfl

theorem alike_comparedReport
    (tag : IsObject v → v.get? "report_type" = some (.text "Compared")) :
    Alike document.answer comparedReport v (canon (.record .report) v) := by
  have fields : IsObject v → Section.fields v .report = reportFields (some "Compared") :=
    fun object => congrArg reportFields (tagText_eq (tag object))
  refine alike_record_canon proper (fun object => ?_) fun object => ?_
  · rw [fields object]
    exact ⟨sees_need proper rfl (blind_listOf 1 (blind_choice rfl)),
      sees_need proper rfl (blind_scalar rfl), sees_need proper rfl (blind_scalar rfl),
      sees_may proper rfl (blind_scalar rfl) fun _ => rfl, sees_need proper rfl (blind_scalar rfl)⟩
  · rw [fields object]
    rfl

end Reports

theorem blind_report : Blind document.answer (.record .report) (reference "Report") := by
  refine blind_reference <| blind_ref rfl fun v proper => ?_
  have tag : fieldOf (Section.fields v .report) "report_type" =
      some (need "report_type" .scalar) := rfl
  exact alike_taggedUnion (sameShape_canon (by nofun) v) (sameUnder_canon proper tag)
    ⟨fun named => alike_ref rfl (alike_simpleReport proper named),
    fun named => alike_ref rfl (alike_comparedReport proper named)⟩

/-! ## §5. Categories. -/

/-- What is below a category is like its canonical form. -/
def ChildrenAlike (v : Json) : Prop :=
  ∀ w, v.get? "sub_categories" = some w →
    Alike document.answer children w (canon (.list (.record .category)) w)

theorem sees_children {fields : List Field} (below : ChildrenAlike v)
    (found : fieldOf fields "sub_categories" =
      some (may "sub_categories" (.list (.record .category)))) :
    Sees document.answer fields v ("sub_categories", children) :=
  ⟨_, found, below, fun _ _ => rfl⟩

/-- The members of a dynamic list of a kind. -/
theorem fields_dynamic {kind : String} (object : IsObject v)
    (tag : IsObject v → v.get? "category_type" = some (.text "DynamicList"))
    (subtype : IsObject v → v.get? "dynamic_subtype" = some (.text kind)) :
    Section.fields v .category = categoryFields (some "DynamicList") (some kind) := by
  show categoryFields _ _ = _
  rw [tagText_eq (tag object), tagText_eq (subtype object)]

section Categories

variable (proper : v.IsProper)

include proper

theorem alike_simpleCategory (below : ChildrenAlike v)
    (tag : IsObject v → v.get? "category_type" = some (.text "Simple")) :
    Alike document.answer simpleCategory v (canon (.record .category) v) := by
  have fields : IsObject v → Section.fields v .category =
      categoryFields (some "Simple") (tagText v "dynamic_subtype") :=
    fun object => congrArg (categoryFields · _) (tagText_eq (tag object))
  refine alike_record_canon proper (fun object => ?_) fun object => ?_
  · rw [fields object]
    refine ⟨?value, ?mandatory, ?letters, ?name, ?count, ?pattern, ?children, ?title, ?type⟩
    case value => exact sees_may proper rfl (blind_always _) fun _ => rfl
    case mandatory => exact sees_need proper rfl (blind_scalar rfl)
    case letters => exact sees_may proper rfl (blind_scalar rfl) fun _ => rfl
    case name => exact sees_need proper rfl (blind_scalar rfl)
    case count => exact sees_may proper rfl (blind_scalar rfl) fun _ => rfl
    case pattern => exact sees_may proper rfl (blind_scalar rfl) fun _ => rfl
    case children => exact sees_children below rfl
    case title => exact sees_may proper rfl (blind_scalar rfl) fun _ => rfl
    case type => exact sees_need proper rfl (blind_choice rfl)
  · rw [fields object]
    rfl

theorem alike_listCategory (below : ChildrenAlike v)
    (tag : IsObject v → v.get? "category_type" = some (.text "List")) :
    Alike document.answer listCategory v (canon (.record .category) v) := by
  have fields : IsObject v → Section.fields v .category =
      categoryFields (some "List") (tagText v "dynamic_subtype") :=
    fun object => congrArg (categoryFields · _) (tagText_eq (tag object))
  refine alike_record_canon proper (fun object => ?_) fun object => ?_
  · rw [fields object]
    refine ⟨?mandatory, ?name, ?count, ?children, ?title, ?values⟩
    case mandatory => exact sees_need proper rfl (blind_scalar rfl)
    case name => exact sees_need proper rfl (blind_scalar rfl)
    case count => exact sees_may proper rfl (blind_scalar rfl) fun _ => rfl
    case children => exact sees_children below rfl
    case title => exact sees_may proper rfl (blind_scalar rfl) fun _ => rfl
    case values => exact sees_need proper rfl (blind_listOf 2 blind_entry)
  · rw [fields object]
    rfl

theorem alike_independentList (below : ChildrenAlike v)
    (tag : IsObject v → v.get? "category_type" = some (.text "DynamicList"))
    (subtype : IsObject v → v.get? "dynamic_subtype" = some (.text "Independent")) :
    Alike document.answer independentList v (canon (.record .category) v) := by
  refine alike_record_canon proper (fun object => ?_) fun object => ?_
  · rw [fields_dynamic object tag subtype]
    refine ⟨?values, ?mandatory, ?name, ?count, ?reference, ?children, ?title⟩
    case values => exact sees_need proper rfl (blind_listOf 1 blind_entry)
    case mandatory => exact sees_need proper rfl (blind_scalar rfl)
    case name => exact sees_need proper rfl (blind_scalar rfl)
    case count => exact sees_may proper rfl (blind_scalar rfl) fun _ => rfl
    case reference => exact sees_may proper rfl (blind_scalar rfl) fun _ => rfl
    case children => exact sees_children below rfl
    case title => exact sees_may proper rfl (blind_scalar rfl) fun _ => rfl
  · rw [fields_dynamic object tag subtype]
    rfl

theorem alike_dependentList (below : ChildrenAlike v)
    (tag : IsObject v → v.get? "category_type" = some (.text "DynamicList"))
    (subtype : IsObject v → v.get? "dynamic_subtype" = some (.text "Dependent")) :
    Alike document.answer dependentList v (canon (.record .category) v) := by
  refine alike_record_canon proper (fun object => ?_) fun object => ?_
  · rw [fields_dynamic object tag subtype]
    refine ⟨?target, ?mandatory, ?name, ?count, ?children, ?title⟩
    case target => exact sees_need proper rfl (blind_scalar rfl)
    case mandatory => exact sees_need proper rfl (blind_scalar rfl)
    case name => exact sees_need proper rfl (blind_scalar rfl)
    case count => exact sees_may proper rfl (blind_scalar rfl) fun _ => rfl
    case children => exact sees_children below rfl
    case title => exact sees_may proper rfl (blind_scalar rfl) fun _ => rfl
  · rw [fields_dynamic object tag subtype]
    rfl

/-- The second tag is declared where the first one names a dynamic list. -/
theorem sameUnder_subtype
    (tag : IsObject v → v.get? "category_type" = some (.text "DynamicList")) :
    SameUnder "dynamic_subtype" v (canon (.record .category) v) := by
  by_cases object : IsObject v
  · refine sameUnder_canon proper ?_
    show fieldOf (categoryFields (tagText v "category_type") _) _ = _
    rw [tagText_eq (tag object)]
    rfl
  · have shape : SameShape v (canon (.record .category) v) := sameShape_canon (by nofun) v
    have other := mt shape.isObject_iff.2 object
    exact .missing (get?_of_not_isObject object _) (get?_of_not_isObject other _)

/-- The first tag is declared whatever it names. -/
theorem sameUnder_type : SameUnder "category_type" v (canon (.record .category) v) := by
  refine sameUnder_canon proper ?_
  show fieldOf (categoryFields _ _) _ = _
  unfold categoryFields
  split <;> rfl

/-- One level of a category. -/
theorem alike_category (below : ChildrenAlike v) :
    Alike document.answer category v (canon (.record .category) v) := by
  have shape : SameShape v (canon (.record .category) v) := sameShape_canon (by nofun) v
  -- the inner union is about the same value, of which the first tag is known by then
  have dynamic : (IsObject v → v.get? "category_type" = some (.text "DynamicList")) →
      Alike document.answer dynamicList v (canon (.record .category) v) := by
    intro tag
    exact alike_taggedUnion shape (sameUnder_subtype proper tag)
      ⟨fun subtype => alike_ref rfl (alike_independentList proper below tag subtype),
      fun subtype => alike_ref rfl (alike_dependentList proper below tag subtype)⟩
  exact alike_taggedUnion shape (sameUnder_type proper)
    ⟨fun tag => alike_ref rfl (alike_simpleCategory proper below tag),
    fun tag => alike_ref rfl (alike_listCategory proper below tag),
    fun tag => alike_ref rfl (dynamic tag)⟩

end Categories

/-- **To the grammar a category is like its canonical form**, by induction on its depth. -/
theorem blind_category : Blind document.answer (.record .category) (reference "Category") := by
  intro v proper
  induction v using depth_induction with
  | step v ih =>
    refine alike_reference (alike_ref rfl (alike_category proper fun w found => ?_))
    -- the children are lower than the list, and the list than the category
    have inside := proper.get? found
    have shallower := depth_get?_lt found
    exact alike_listOrNull (sameShape_canon (by nofun) w)
      (forall₂_canon (fun u hu lower => ih u (Nat.lt_trans lower shallower) hu) inside) 1

/-! ## §6. Documents. -/

theorem blind_root : Blind document.answer (.record .document) root := by
  refine fun _ proper => alike_record_canon proper (fun _ => ?_) fun _ => rfl
  refine ⟨?categories, ?project, ?quality, ?reporting, ?screening⟩
  case categories => exact sees_need proper rfl (blind_listOf 1 blind_category)
  case project => exact sees_need proper rfl blind_project
  case quality =>
    exact sees_may proper rfl (blind_referenceOrNull nofun blind_quality) fun _ => rfl
  case reporting => exact sees_may proper rfl (blind_anyListOrNull blind_report) fun _ => rfl
  case screening =>
    exact sees_may proper rfl (blind_referenceOrNull nofun blind_screening) fun _ => rfl

/-- **The grammar finds the same broken at the same places in a document and in its
canonical form.** -/
theorem map_outline_violations (proper : v.IsProper) :
    (Validator.grammar.violations v).map Violation.outline =
      (Validator.grammar.violations (canon (.record .document) v)).map Violation.outline := by
  rw [grammar_eq, SchemaDocument.violations_eq isRanked_document,
    SchemaDocument.violations_eq isRanked_document]
  exact blind_root v proper []

end ProtocolGrammar

end LiteratureReview
