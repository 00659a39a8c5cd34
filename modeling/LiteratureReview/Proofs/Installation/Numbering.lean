/-
  LiteratureReview.Proofs.Installation.Numbering
  ──────────────────────────────────────────────
  Rows of one owner are numbered without gaps.

  Criteria and phases are numbered under their project, questions under
  their template, options under their question and fields under their form:
  zero, one, and so on, each number once (`IsNumberedIn`).  No constraint of
  the tables asks for this; it is so because plans are made so
  (`kept_isNumberedIn`).  A field has a parent in the same form, and with a
  smaller number (`kept_haveParents`).
-/
import LiteratureReview.Proofs.Installation.Answers

namespace LiteratureReview

open Database EntityType

/-! ## §1. Numbers without gaps. -/

/-- The column of the owner under which the rows of a table are numbered. -/
def EntityType.numberedUnder : EntityType → Option String
  | .exclusionCriterion | .screeningPhase => some "project_id"
  | .qaQuestion => some "template_id"
  | .qaOption => some "question_id"
  | .extractionField => some "form_id"
  | .project | .projectMember | .projectConfig | .qaTemplate | .extractionForm => none

/-- The numbers of a list: zero, one, and so on. -/
def Cell.places (n : Nat) : List Cell := (List.range n).map fun i : Nat => .int i

/-- Whatever the owner, its rows are numbered from zero on, without gaps. -/
def Row.IsNumberedIn (entity : EntityType) (column : String) (rows : List Row) : Prop :=
  ∀ owner : String, ∃ n,
    (rows.filter fun row => (entity.cellAt column row).agrees (.text owner)).map
      (entity.cellAt "position") = Cell.places n

/-- A field stands above another: in the same form, with a smaller number. -/
def Row.StandsAbove (above row : Row) : Prop :=
  EntityType.extractionField.cellAt "form_id" above =
      EntityType.extractionField.cellAt "form_id" row ∧
    ∃ i j : Nat, i < j ∧ EntityType.extractionField.cellAt "position" above = .int i ∧
      EntityType.extractionField.cellAt "position" row = .int j

/-- The parent of a field is there, and stands above it. -/
def Row.HaveParents (rows : List Row) : Prop :=
  ∀ row ∈ rows, ∀ parent : String,
    EntityType.extractionField.cellAt "parent_id" row = .text parent →
      ∃ above ∈ rows, EntityType.extractionField.cellAt "id" above = .text parent ∧
        StandsAbove above row

open Cell Row

theorem Cell.ofOption_eq_text_iff {o : Option String} {s : String} :
    Cell.ofOption o = .text s ↔ o = some s := by
  cases o <;> simp [Cell.ofOption]

section Lists

variable {α β : Type} {entity : EntityType} {column owner : String} {toRow : α → Row}
variable {items : List α}

theorem isNumberedIn_nil : IsNumberedIn entity column [] :=
  fun _ => ⟨0, rfl⟩

/-- Rows of one owner that are numbered from front to back. -/
theorem isNumberedIn_of_owner (owned : ∀ r ∈ items, entity.cellAt column (toRow r) = .text owner)
    (placed : items.map (fun r => entity.cellAt "position" (toRow r)) = places items.length) :
    IsNumberedIn entity column (items.map toRow) := by
  intro other
  by_cases same : owner = other
  · subst same
    refine ⟨items.length, ?_⟩
    rw [filter_made_all owned, List.map_map]
    exact placed
  · -- nobody else owns any of them
    refine ⟨0, ?_⟩
    have nothing : ((items.map toRow).filter fun row =>
        (entity.cellAt column row).agrees (.text other)) = [] := by
      refine List.filter_eq_nil_iff.2 fun row mem there => ?_
      obtain ⟨r, inside, rfl⟩ := List.mem_map.1 mem
      have text := Cell.agrees_text_iff.1 there
      rw [owned r inside] at text
      exact same (Cell.text.inj text)
    rw [nothing]
    rfl

/-- Rows of several owners, in groups: one group has the rows of one owner, numbered from
front to back. -/
theorem exists_places_of_groups {ownerOf : α → String} {cell : α → Cell} {groups : List (List α)}
    (placed : ∀ g ∈ groups, g.map cell = places g.length)
    (one : ∀ g ∈ groups, ∀ a ∈ g, ∀ b ∈ g, ownerOf a = ownerOf b)
    (apart : groups.Pairwise fun g h => ∀ a ∈ g, ∀ b ∈ h, ownerOf a ≠ ownerOf b) :
    ∃ n, (groups.flatten.filter fun r => ownerOf r = owner).map cell = places n := by
  induction groups with
  | nil => exact ⟨0, rfl⟩
  | cons g rest ih =>
    obtain ⟨front, behind⟩ := List.pairwise_cons.1 apart
    rw [List.flatten_cons, List.filter_append]
    by_cases mine : ∃ a ∈ g, ownerOf a = owner
    · -- the first group is that of the owner, and it is the only one
      obtain ⟨a, mem, rfl⟩ := mine
      have all : (g.filter fun r => ownerOf r = ownerOf a) = g := by
        refine List.filter_eq_self.2 fun b inside => decide_eq_true ?_
        exact one g List.mem_cons_self b inside a mem
      have none : (rest.flatten.filter fun r => ownerOf r = ownerOf a) = [] := by
        refine List.filter_eq_nil_iff.2 fun b inside same => ?_
        obtain ⟨h, among, there⟩ := List.mem_flatten.1 inside
        exact front h among a mem b there (of_decide_eq_true same).symm
      rw [all, none, List.append_nil]
      exact ⟨g.length, placed g List.mem_cons_self⟩
    · have none : (g.filter fun r => ownerOf r = owner) = [] := by
        refine List.filter_eq_nil_iff.2 fun b inside same => ?_
        exact mine ⟨b, inside, of_decide_eq_true same⟩
      rw [none, List.nil_append]
      exact ih (fun h mem => placed h (List.mem_cons_of_mem _ mem))
        (fun h mem => one h (List.mem_cons_of_mem _ mem)) behind

end Lists

/-! ## §2. Positions. -/

namespace Plan

theorem ofU32_position {i : Nat} (inside : i < positionLimit) :
    Cell.ofU32 (position i) = .int i := by
  rw [Cell.ofU32, toNat_position inside]

/-- What is made of the entries of a list at their places is numbered. -/
theorem places_mapIdx {α β : Type} {f : Nat → α → β} {cell : β → Cell} {items : List α}
    (few : items.length ≤ positionLimit) (h : ∀ i x, cell (f i x) = .ofU32 (position i)) :
    (items.mapIdx f).map cell = places (items.mapIdx f).length := by
  refine List.ext_getElem (by simp [places]) fun i left right => ?_
  have inside : i < items.length := by simpa using left
  simp only [List.getElem_map, List.getElem_mapIdx, h, places, List.getElem_range]
  exact ofU32_position (Nat.lt_of_lt_of_le inside few)

variable {by_ : Provision} {start : Nat}

theorem places_criteria {projectId : String} {s : ScreeningSection}
    (few : s.exclusionCriteria.length ≤ positionLimit) :
    (criteria by_ projectId start s).map (fun r => Cell.ofU32 r.position) =
      places (criteria by_ projectId start s).length :=
  places_mapIdx few fun _ _ => rfl

theorem places_phases {projectId : String} {s : ScreeningSection}
    (few : s.declaredPhases.length ≤ positionLimit) :
    (phases by_ projectId start s).map (fun r => Cell.ofU32 r.position) =
      places (phases by_ projectId start s).length := by
  unfold phases
  split
  · rfl
  · exact places_mapIdx few fun _ _ => rfl

theorem places_questions {projectId : String} {q : QualitySection}
    (few : q.questions.length ≤ positionLimit) :
    (quality by_ projectId start q).questions.map (fun r => Cell.ofU32 r.position) =
      places (quality by_ projectId start q).questions.length :=
  places_mapIdx few fun _ _ => rfl

theorem places_options {questionId : String} {responses : List ResponseSection}
    (few : responses.length ≤ positionLimit) :
    (options by_ questionId start responses).map (fun r => Cell.ofU32 r.position) =
      places (options by_ questionId start responses).length :=
  places_mapIdx few fun _ _ => rfl

/-- Fields are numbered in the order in which the tree is walked. -/
theorem position_fieldOf {formId : String} {categories : List Category}
    (few : (flatten categories).length ≤ positionLimit) {i : Nat}
    (inside : i < (flatten categories).length) :
    Cell.ofU32 (fieldOf by_ formId start (flatten categories)[i]).position = .int i := by
  rw [fieldOf, order_getElem inside]
  exact ofU32_position (Nat.lt_of_lt_of_le inside few)

theorem places_fields {formId : String} {categories : List Category}
    (few : (flatten categories).length ≤ positionLimit) :
    ((flatten categories).map (fieldOf by_ formId start)).map (fun r => Cell.ofU32 r.position) =
      places ((flatten categories).map (fieldOf by_ formId start)).length := by
  refine List.ext_getElem (by simp [places]) fun i left right => ?_
  have inside : i < (flatten categories).length := by simpa using left
  simp only [List.getElem_map, places, List.getElem_range]
  exact position_fieldOf few inside

end Plan

/-! ## §3. The rows of a plan. -/

namespace InstallPlan

variable {by_ : Provision} {p : ReviewProtocol} {user : String}

theorem criteria_isNumberedIn (few : p.HasPositions) :
    IsNumberedIn .exclusionCriterion "project_id" ((of by_ p user).kept .exclusionCriterion) := by
  show IsNumberedIn _ _ ((of by_ p user).criteria.map ExclusionCriterion.toRow)
  rcases of_screening_cases by_ p user with ⟨_, none, _⟩ | ⟨s, start, screening, all, _⟩
  · rw [none]
    exact isNumberedIn_nil
  · rw [all]
    exact isNumberedIn_of_owner (fun r mem => congrArg Cell.text (Plan.projectId_of_criteria mem))
      (Plan.places_criteria (few.criteria s screening))

theorem phases_isNumberedIn (few : p.HasPositions) :
    IsNumberedIn .screeningPhase "project_id" ((of by_ p user).kept .screeningPhase) := by
  show IsNumberedIn _ _ ((of by_ p user).phases.map ScreeningPhase.toRow)
  rcases of_screening_cases by_ p user with ⟨_, _, none⟩ | ⟨s, start, screening, _, all⟩
  · rw [none]
    exact isNumberedIn_nil
  · rw [all]
    exact isNumberedIn_of_owner (fun r mem => congrArg Cell.text (Plan.projectId_of_phases mem))
      (Plan.places_phases (few.phases s screening))

theorem questions_isNumberedIn (few : p.HasPositions) :
    IsNumberedIn .qaQuestion "template_id" ((of by_ p user).kept .qaQuestion) := by
  cases planned : (of by_ p user).quality with
  | none =>
    have nothing : (of by_ p user).kept .qaQuestion = [] := by simp [kept, planned]
    rw [nothing]
    exact isNumberedIn_nil
  | some q =>
    have rows : (of by_ p user).kept .qaQuestion = q.questions.map (·.toRow) := by
      simp [kept, planned]
    have owned := isCoherent_of.questions q planned
    obtain ⟨section_, quality, rfl⟩ := Option.map_eq_some_iff.1 planned
    rw [rows]
    exact isNumberedIn_of_owner (fun r mem => congrArg Cell.text (owned r mem))
      (Plan.places_questions (few.questions section_ quality))

/-- The options of one question are in one group, since no two questions share an id. -/
theorem options_isNumberedIn (few : p.HasPositions)
    (distinct : ∀ q, (of by_ p user).quality = some q → (q.questions.map (·.id)).Nodup) :
    IsNumberedIn .qaOption "question_id" ((of by_ p user).kept .qaOption) := by
  cases planned : (of by_ p user).quality with
  | none =>
    have nothing : (of by_ p user).kept .qaOption = [] := by simp [kept, planned]
    rw [nothing]
    exact isNumberedIn_nil
  | some q =>
    have rows : (of by_ p user).kept .qaOption = q.options.map (·.restored.toRow) := by
      simp [kept, planned]
    have apart := distinct q planned
    obtain ⟨section_, quality, rfl⟩ := Option.map_eq_some_iff.1 planned
    intro owner
    have mine : ∀ r : QaOption, EntityType.qaOption.cellAt "question_id" r.restored.toRow =
        .text r.questionId := fun _ => rfl
    rw [rows, filter_made_of mine, List.map_map]
    -- the groups are the options of one question each
    refine exists_places_of_groups ?_ ?_ ?_
    · intro g mem
      obtain ⟨i, there, rfl⟩ := List.mem_mapIdx.1 mem
      exact Plan.places_options (few.responses section_ quality)
    · intro g mem a left b right
      obtain ⟨i, there, rfl⟩ := List.mem_mapIdx.1 mem
      obtain ⟨_, _, rfl⟩ := List.mem_mapIdx.1 left
      obtain ⟨_, _, rfl⟩ := List.mem_mapIdx.1 right
      rfl
    · refine Plan.pairwise_mapIdx fun i j front back before a left b right => ?_
      obtain ⟨_, _, rfl⟩ := List.mem_mapIdx.1 left
      obtain ⟨_, _, rfl⟩ := List.mem_mapIdx.1 right
      exact List.pairwise_iff_getElem.1 (List.pairwise_map.1 apart) i j front back before

/-- The rows of the fields, if there are any, are made of the flattened categories. -/
theorem kept_fields_cases (by_ : Provision) (p : ReviewProtocol) (user : String) :
    (of by_ p user).kept .extractionField = [] ∨ ∃ formId start,
      (of by_ p user).kept .extractionField =
        ((flatten p.categories).map (Plan.fieldOf by_ formId start)).map (·.toRow) := by
  rcases of_form_cases by_ p user with ⟨none, _⟩ | ⟨f, start, planned, _, all⟩
  · exact .inl (by simp [kept, none])
  · exact .inr ⟨f.id, start, by simp [kept, planned, all]⟩

theorem fields_isNumberedIn (few : p.HasPositions) :
    IsNumberedIn .extractionField "form_id" ((of by_ p user).kept .extractionField) := by
  rcases kept_fields_cases by_ p user with nothing | ⟨formId, start, rows⟩
  · rw [nothing]
    exact isNumberedIn_nil
  · have owned : ∀ r ∈ (flatten p.categories).map (Plan.fieldOf by_ formId start),
        EntityType.extractionField.cellAt "form_id" r.toRow = .text formId := by
      intro r mem
      obtain ⟨d, _, rfl⟩ := List.mem_map.1 mem
      rfl
    rw [rows]
    exact isNumberedIn_of_owner owned (Plan.places_fields few.fields)

/-- **The rows of a plan are numbered without gaps**, when there are positions for them. -/
theorem kept_isNumberedIn (few : p.HasPositions)
    (distinct : ∀ q, (of by_ p user).quality = some q → (q.questions.map (·.id)).Nodup)
    {entity : EntityType} {column : String} (under : entity.numberedUnder = some column) :
    IsNumberedIn entity column ((of by_ p user).kept entity) := by
  cases entity <;> cases under
  case exclusionCriterion => exact criteria_isNumberedIn few
  case screeningPhase => exact phases_isNumberedIn few
  case qaQuestion => exact questions_isNumberedIn few
  case qaOption => exact options_isNumberedIn few distinct
  case extractionField => exact fields_isNumberedIn few

/-! ## §4. Parents. -/

theorem standsAbove_toRow {a b : ExtractionField} {i j : Nat} (form : a.formId = b.formId)
    (before : i < j) (above : Cell.ofU32 a.position = .int i)
    (below : Cell.ofU32 b.position = .int j) : StandsAbove a.toRow b.toRow :=
  ⟨congrArg Cell.text form, i, j, before, above, below⟩

/-- **A field that has a parent stands below it**, when there are positions for all. -/
theorem kept_haveParents (few : p.HasPositions) :
    HaveParents ((of by_ p user).kept .extractionField) := by
  rcases kept_fields_cases by_ p user with nothing | ⟨formId, start, rows⟩
  · rw [nothing]
    exact fun row mem => absurd mem List.not_mem_nil
  · rw [rows]
    intro row mem parent below
    obtain ⟨r, inside, rfl⟩ := List.mem_map.1 mem
    obtain ⟨i, left, rfl⟩ := List.mem_iff_getElem.1 inside
    have parentId := Cell.ofOption_eq_text_iff.1 below
    -- a category stands in front of those below it when the tree is flattened
    obtain ⟨j, before, above, there, id⟩ :=
      Plan.parent_in_front (List.getElem?_eq_getElem left) parentId
    obtain ⟨right, rfl⟩ := List.getElem?_eq_some_iff.1 there
    rw [List.length_map] at left right
    refine ⟨_, List.mem_map_of_mem (List.getElem_mem _), congrArg Cell.text id, ?_⟩
    simp only [List.getElem_map]
    exact standsAbove_toRow rfl before (Plan.position_fieldOf few.fields right)
      (Plan.position_fieldOf few.fields left)

end InstallPlan

end LiteratureReview
