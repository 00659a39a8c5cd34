/-
  LiteratureReview.Proofs.Installation.Planning
  ─────────────────────────────────────────────
  The plan of a protocol, as a value.

  Making a plan cannot fail: the field a field belongs to stands in front of
  it, so that its id is there to be looked up (`fields_eq`, `build_eq`).
  Rows with one owner are numbered from front to back, with numbers of their
  own as long as there are enough of them (`isNumbered_of`).
-/
import LiteratureReview.Installation.Plan
import LiteratureReview.Proofs.Extraction.Flatten
import LiteratureReview.Proofs.Json.Records
import Mathlib.Data.List.Basic

namespace LiteratureReview

open Decimal

namespace Plan

variable {by_ : Provision}

/-! ## §1. Fields. -/

/-- The field of a descriptor, its parent told by its place. -/
def fieldOf (by_ : Provision) (formId : String) (start : Nat) (d : FieldDescriptor) :
    ExtractionField where
  id := EntityType.extractionField.rowId (by_.words (start + d.order))
  formId := formId
  name := d.name
  label := d.label
  kind := d.kind
  isRequired := d.isRequired
  position := position d.order
  config := d.config
  parentId := d.parentIndex.map fun j => EntityType.extractionField.rowId (by_.words (start + j))

/-- Every field has the parent that its descriptor tells. -/
theorem fields_eq (formId : String) (start : Nat) (categories : List Category) :
    fields by_ formId start categories =
      .ok ((flatten categories).map (fieldOf by_ formId start)) := by
  unfold fields
  simp only
  generalize same : (List.range (flatten categories).length).map
    (fun i => EntityType.extractionField.rowId (by_.words (start + i))) = ids
  have known : ∀ i, i < (flatten categories).length →
      ids[i]? = some (EntityType.extractionField.rowId (by_.words (start + i))) := by
    intro i inside
    simp [← same, inside]
  have pairs : ids.zip (flatten categories) = (flatten categories).map fun d =>
      (EntityType.extractionField.rowId (by_.words (start + d.order)), d) := by
    refine List.ext_getElem (by simp [← same]) fun i _ inside => ?_
    have inside : i < (flatten categories).length := by simpa using inside
    simp only [List.getElem_zip, List.getElem_map, order_getElem inside, ← same,
      List.getElem_range]
  rw [pairs, List.mapM_map]
  refine mapM_eq_ok_map fun d mem => ?_
  -- the place of the parent is in front of that of the field
  show field ids formId _ d = _
  unfold field
  cases below : d.parentIndex with
  | none => simp [fieldOf, below, bind, Except.bind, pure, Except.pure]
  | some j =>
    have front := Nat.lt_trans (parentIndex_lt mem below) (order_lt mem)
    simp [fieldOf, below, known j front, bind, Except.bind, pure, Except.pure]

end Plan

/-! ## §2. The plan. -/

namespace InstallPlan

/-- The plan of a protocol, made without fail. -/
def of (by_ : Provision) (p : ReviewProtocol) (user : String) : InstallPlan :=
  let projectId := EntityType.project.rowId (by_.words 0)
  let criteria := (p.screening.map (Plan.criteria by_ projectId 3)).getD []
  let phasesAt := 3 + criteria.length
  let phases := (p.screening.map (Plan.phases by_ projectId phasesAt)).getD []
  let qualityAt := phasesAt + phases.length
  let formAt := qualityAt + (p.quality.map Plan.qualityCount).getD 0
  let form := if p.extractionEnabled then some (Plan.form by_ projectId formAt) else none
  { project :=
      { id := projectId
        label := p.label
        title := p.project.name.text
        description := p.project.description
        status := .draft
        createdBy := user
        createdAt := by_.now }
    member :=
      { id := EntityType.projectMember.rowId (by_.words 1)
        projectId := projectId
        userId := user
        role := .admin
        createdAt := by_.now }
    config := Plan.config by_ projectId p
    criteria := criteria
    phases := phases
    quality := p.quality.map (Plan.quality by_ projectId qualityAt)
    form := form
    fields := match form with
      | some f => (flatten p.categories).map (Plan.fieldOf by_ f.id (formAt + 1))
      | none => [] }

/-- Making a plan cannot fail. -/
theorem build_eq (by_ : Provision) (p : ReviewProtocol) (user : String) :
    build by_ p user = .ok (of by_ p user) := by
  unfold build of
  cases enabled : p.extractionEnabled with
  | false => rfl
  | true =>
    simp only [if_true, Plan.fields_eq]
    rfl

theorem eq_of_build {by_ : Provision} {p : ReviewProtocol} {user : String} {plan : InstallPlan}
    (planned : build by_ p user = .ok plan) : plan = of by_ p user := by
  rw [build_eq] at planned
  exact (Except.ok.inj planned).symm

end InstallPlan

/-! ## §3. Positions. -/

/-- How many positions there are. -/
def positionLimit : Nat := 4294967296

/-- There is a position for every entry of the lists that become rows. -/
structure ReviewProtocol.HasPositions (p : ReviewProtocol) : Prop where
  criteria : ∀ s, p.screening = some s → s.exclusionCriteria.length ≤ positionLimit
  phases : ∀ s, p.screening = some s → s.declaredPhases.length ≤ positionLimit
  questions : ∀ q, p.quality = some q → q.questions.length ≤ positionLimit
  responses : ∀ q, p.quality = some q → q.responses.length ≤ positionLimit
  fields : (flatten p.categories).length ≤ positionLimit

namespace Plan

variable {by_ : Provision}

theorem toNat_position {i : Nat} (inside : i < positionLimit) : (position i).toNat = i := by
  have : min i (twoTo 32 - 1) = i := by
    have : twoTo 32 - 1 = 4294967295 := by decide
    unfold positionLimit at inside
    omega
  rw [position, this, UInt32.toNat_ofNat_of_lt' inside]

theorem position_lt {i j : Nat} (inside : j < positionLimit) (before : i < j) :
    position i < position j := by
  rw [UInt32.lt_iff_toNat_lt, toNat_position inside, toNat_position (Nat.lt_trans before inside)]
  exact before

/-- Positions do not descend, however many there are. -/
theorem position_le {i j : Nat} (before : i < j) : position i ≤ position j := by
  have limit : twoTo 32 = 4294967296 := by decide
  unfold position
  rw [UInt32.le_iff_toNat_le, UInt32.toNat_ofNat_of_lt' (show _ < 4294967296 by omega),
    UInt32.toNat_ofNat_of_lt' (show _ < 4294967296 by omega)]
  omega

/-- The positions of a list of some length stand in a relation from front to back. -/
def Ascends (R : UInt32 → UInt32 → Prop) (length : Nat) : Prop :=
  ∀ i j, i < j → j < length → R (position i) (position j)

variable {R : UInt32 → UInt32 → Prop}

theorem ascends_lt {length : Nat} (few : length ≤ positionLimit) : Ascends (· < ·) length :=
  fun _ _ before inside => position_lt (Nat.lt_of_lt_of_le inside few) before

theorem ascends_le (length : Nat) : Ascends (· ≤ ·) length :=
  fun _ _ before _ => position_le before

/-- What is made of the entries of a list at their places. -/
theorem pairwise_mapIdx {α β : Type} {S : β → β → Prop} {f : Nat → α → β} {items : List α}
    (h : ∀ i j (front : i < items.length) (back : j < items.length), i < j →
      S (f i items[i]) (f j items[j])) :
    (items.mapIdx f).Pairwise S := by
  refine List.pairwise_iff_getElem.2 fun i j left right before => ?_
  rw [List.length_mapIdx] at left right
  simp only [List.getElem_mapIdx]
  exact h i j left right before

/-- Rows that are numbered by their places come with ascending positions. -/
theorem ascending_mapIdx {α β : Type} {place : β → UInt32} {f : Nat → α → β} {items : List α}
    (ascends : Ascends R items.length) (h : ∀ i x, place (f i x) = position i) :
    (items.mapIdx f).Pairwise fun a b => R (place a) (place b) := by
  refine pairwise_mapIdx fun i j _ back before => ?_
  rw [h, h]
  exact ascends i j before back

theorem criteria_ascending {projectId : String} {start : Nat} {s : ScreeningSection}
    (ascends : Ascends R s.exclusionCriteria.length) :
    (criteria by_ projectId start s).Pairwise fun a b => R a.position b.position :=
  ascending_mapIdx ascends fun _ _ => rfl

theorem phases_ascending {projectId : String} {start : Nat} {s : ScreeningSection}
    (ascends : Ascends R s.declaredPhases.length) :
    (phases by_ projectId start s).Pairwise fun a b => R a.position b.position := by
  unfold phases
  split
  · exact List.pairwise_singleton _ _
  · exact ascending_mapIdx ascends fun _ _ => rfl

theorem questions_ascending {projectId : String} {start : Nat} {q : QualitySection}
    (ascends : Ascends R q.questions.length) :
    (quality by_ projectId start q).questions.Pairwise fun a b => R a.position b.position :=
  ascending_mapIdx ascends fun _ _ => rfl

theorem options_ascending {questionId : String} {start : Nat} {responses : List ResponseSection}
    (ascends : Ascends R responses.length) :
    (options by_ questionId start responses).Pairwise fun a b => R a.position b.position :=
  ascending_mapIdx ascends fun _ _ => rfl

theorem fields_ascending {formId : String} {start : Nat} {categories : List Category}
    (ascends : Ascends R (flatten categories).length) :
    ((flatten categories).map (fieldOf by_ formId start)).Pairwise fun a b =>
      R a.position b.position := by
  refine List.pairwise_iff_getElem.2 fun i j left right before => ?_
  rw [List.length_map] at left right
  simp only [List.getElem_map, fieldOf, order_getElem left, order_getElem right]
  exact ascends i j before right

end Plan

/-- The positions of the lists that become rows stand in a relation from front to
back. -/
structure ReviewProtocol.Ascends (R : UInt32 → UInt32 → Prop) (p : ReviewProtocol) : Prop where
  criteria : ∀ s, p.screening = some s → Plan.Ascends R s.exclusionCriteria.length
  phases : ∀ s, p.screening = some s → Plan.Ascends R s.declaredPhases.length
  questions : ∀ q, p.quality = some q → Plan.Ascends R q.questions.length
  responses : ∀ q, p.quality = some q → Plan.Ascends R q.responses.length
  fields : Plan.Ascends R (flatten p.categories).length

theorem ReviewProtocol.HasPositions.ascends {p : ReviewProtocol} (h : p.HasPositions) :
    p.Ascends (· < ·) where
  criteria s there := Plan.ascends_lt (h.criteria s there)
  phases s there := Plan.ascends_lt (h.phases s there)
  questions q there := Plan.ascends_lt (h.questions q there)
  responses q there := Plan.ascends_lt (h.responses q there)
  fields := Plan.ascends_lt h.fields

theorem ReviewProtocol.ascends_le (p : ReviewProtocol) : p.Ascends (· ≤ ·) where
  criteria _ _ := Plan.ascends_le _
  phases _ _ := Plan.ascends_le _
  questions _ _ := Plan.ascends_le _
  responses _ _ := Plan.ascends_le _
  fields := Plan.ascends_le _

/-! ## §4. What holds the rows of a plan together. -/

namespace InstallPlan

/-- Every row of a plan belongs to a row in front of it. -/
structure IsCoherent (plan : InstallPlan) : Prop where
  member : plan.member.projectId = plan.project.id
  config : plan.config.projectId = plan.project.id
  criteria : ∀ r ∈ plan.criteria, r.projectId = plan.project.id
  phases : ∀ r ∈ plan.phases, r.projectId = plan.project.id
  template : ∀ q, plan.quality = some q → q.template.projectId = plan.project.id
  questions : ∀ q, plan.quality = some q → ∀ r ∈ q.questions, r.templateId = q.template.id
  options : ∀ q, plan.quality = some q → ∀ r ∈ q.options, ∃ owner ∈ q.questions,
    r.questionId = owner.id
  form : ∀ f, plan.form = some f → f.projectId = plan.project.id
  fields : ∀ f, plan.form = some f → ∀ r ∈ plan.fields, r.formId = f.id
  parents : ∀ (i : Nat) (r : ExtractionField), plan.fields[i]? = some r →
    ∀ parent, r.parentId = some parent →
      ∃ j < i, ∃ above : ExtractionField, plan.fields[j]? = some above ∧ above.id = parent

/-- Rows with one owner come with positions in the order of a relation. -/
structure IsNumbered (R : UInt32 → UInt32 → Prop) (plan : InstallPlan) : Prop where
  criteria : plan.criteria.Pairwise fun a b => R a.position b.position
  phases : plan.phases.Pairwise fun a b => R a.position b.position
  questions : ∀ q, plan.quality = some q →
    q.questions.Pairwise fun a b => R a.position b.position
  options : ∀ q, plan.quality = some q →
    q.options.Pairwise fun a b => a.questionId = b.questionId → R a.position b.position
  fields : plan.fields.Pairwise fun a b => R a.position b.position

end InstallPlan

namespace Plan

variable {by_ : Provision}

theorem projectId_of_criteria {projectId : String} {start : Nat} {s : ScreeningSection}
    {r : ExclusionCriterion} (h : r ∈ criteria by_ projectId start s) :
    r.projectId = projectId := by
  obtain ⟨i, there, rfl⟩ := List.mem_mapIdx.1 h
  rfl

theorem projectId_of_phases {projectId : String} {start : Nat} {s : ScreeningSection}
    {r : ScreeningPhase} (h : r ∈ phases by_ projectId start s) : r.projectId = projectId := by
  unfold phases at h
  split at h
  · rw [List.mem_singleton.1 h]
  · obtain ⟨i, there, rfl⟩ := List.mem_mapIdx.1 h
    rfl

theorem mem_options {projectId : String} {start : Nat} {q : QualitySection} {r : QaOption}
    (h : r ∈ (quality by_ projectId start q).options) :
    ∃ owner ∈ (quality by_ projectId start q).questions, r.questionId = owner.id := by
  obtain ⟨group, mem, inside⟩ := List.mem_flatten.1 h
  obtain ⟨i, place, rfl⟩ := List.mem_mapIdx.1 mem
  obtain ⟨j, there, rfl⟩ := List.mem_mapIdx.1 inside
  exact ⟨_, List.getElem_mem place, rfl⟩

/-- Options of one question come with ascending positions, since no two questions
share an id. -/
theorem quality_options_ascending {R : UInt32 → UInt32 → Prop} {projectId : String} {start : Nat}
    {q : QualitySection} (ascends : Ascends R q.responses.length)
    (distinct : ((quality by_ projectId start q).questions.map (·.id)).Nodup) :
    (quality by_ projectId start q).options.Pairwise fun a b =>
      a.questionId = b.questionId → R a.position b.position := by
  refine List.pairwise_flatten.2 ⟨fun group mem => ?_, ?_⟩
  · obtain ⟨i, place, rfl⟩ := List.mem_mapIdx.1 mem
    refine List.Pairwise.imp ?_ (options_ascending ascends)
    intro a b before _
    exact before
  · refine pairwise_mapIdx fun i j front back before => ?_
    intro a left b right same
    obtain ⟨_, _, rfl⟩ := List.mem_mapIdx.1 left
    obtain ⟨_, _, rfl⟩ := List.mem_mapIdx.1 right
    have apart := List.pairwise_iff_getElem.1 (List.pairwise_map.1 distinct) i j front back before
    exact absurd same apart

/-- A field belongs to a field in front of it. -/
theorem parent_in_front {formId : String} {start : Nat} {categories : List Category} {i : Nat}
    {r : ExtractionField}
    (h : ((flatten categories).map (fieldOf by_ formId start))[i]? = some r) {parent : String}
    (below : r.parentId = some parent) :
    ∃ j < i, ∃ above, ((flatten categories).map (fieldOf by_ formId start))[j]? = some above ∧
      above.id = parent := by
  obtain ⟨inside, rfl⟩ := List.getElem?_eq_some_iff.1 h
  rw [List.length_map] at inside
  rw [List.getElem_map] at below
  obtain ⟨j, place, rfl⟩ := Option.map_eq_some_iff.1 below
  have front := parentIndex_lt (List.getElem_mem inside) place
  rw [order_getElem inside] at front
  have there := Nat.lt_trans front inside
  refine ⟨j, front, fieldOf by_ formId start (flatten categories)[j], ?_, ?_⟩
  · simp [there]
  · simp only [fieldOf, order_getElem there]

end Plan

namespace InstallPlan

variable {by_ : Provision} {p : ReviewProtocol} {user : String}

/-- The criteria and phases of a plan, none without a screening section. -/
theorem of_screening_cases (by_ : Provision) (p : ReviewProtocol) (user : String) :
    (p.screening = none ∧ (of by_ p user).criteria = [] ∧ (of by_ p user).phases = []) ∨
      ∃ s start, p.screening = some s ∧
        (of by_ p user).criteria = Plan.criteria by_ (of by_ p user).project.id 3 s ∧
        (of by_ p user).phases = Plan.phases by_ (of by_ p user).project.id start s := by
  unfold of
  cases p.screening with
  | none => exact .inl ⟨rfl, rfl, rfl⟩
  | some s => exact .inr ⟨s, _, rfl, rfl, rfl⟩

/-- The form of a plan, with a field for each category of the protocol. -/
theorem of_form_cases (by_ : Provision) (p : ReviewProtocol) (user : String) :
    ((of by_ p user).form = none ∧ (of by_ p user).fields = []) ∨
      ∃ f start, (of by_ p user).form = some f ∧ f.projectId = (of by_ p user).project.id ∧
        (of by_ p user).fields = (flatten p.categories).map (Plan.fieldOf by_ f.id start) := by
  unfold of
  cases p.extractionEnabled with
  | false => exact .inl ⟨rfl, rfl⟩
  | true => exact .inr ⟨_, _, rfl, rfl, rfl⟩

theorem mem_criteria_of {r : ExclusionCriterion} (mem : r ∈ (of by_ p user).criteria) :
    ∃ s start, p.screening = some s ∧
      r ∈ Plan.criteria by_ (of by_ p user).project.id start s := by
  rcases of_screening_cases by_ p user with ⟨_, none, _⟩ | ⟨s, start, screening, all, _⟩
  · rw [none] at mem
    cases mem
  · exact ⟨s, _, screening, all ▸ mem⟩

theorem mem_phases_of {r : ScreeningPhase} (mem : r ∈ (of by_ p user).phases) :
    ∃ s start, p.screening = some s ∧
      r ∈ Plan.phases by_ (of by_ p user).project.id start s := by
  rcases of_screening_cases by_ p user with ⟨_, _, none⟩ | ⟨s, start, screening, _, all⟩
  · rw [none] at mem
    cases mem
  · exact ⟨s, start, screening, all ▸ mem⟩

/-- A form belongs to the project, and the fields to the form. -/
theorem of_form_eq_some {f : ExtractionForm} (planned : (of by_ p user).form = some f) :
    f.projectId = (of by_ p user).project.id ∧
      ∃ start, (of by_ p user).fields = (flatten p.categories).map (Plan.fieldOf by_ f.id start) := by
  rcases of_form_cases by_ p user with ⟨none, _⟩ | ⟨form, start, some, owned, all⟩
  · rw [none] at planned
    cases planned
  · rw [some] at planned
    cases planned
    exact ⟨owned, start, all⟩

theorem mem_fields_of {r : ExtractionField} (mem : r ∈ (of by_ p user).fields) :
    ∃ f start, (of by_ p user).form = some f ∧
      ∃ d ∈ flatten p.categories, Plan.fieldOf by_ f.id start d = r := by
  rcases of_form_cases by_ p user with ⟨_, empty⟩ | ⟨f, start, planned, _, all⟩
  · rw [empty] at mem
    cases mem
  · rw [all] at mem
    exact ⟨f, start, planned, List.mem_map.1 mem⟩

/-- A plan is coherent, whatever protocol it is made of. -/
theorem isCoherent_of : (of by_ p user).IsCoherent := by
  refine {
    member := rfl
    config := rfl
    criteria := ?_
    phases := ?_
    template := ?_
    questions := ?_
    options := ?_
    form := ?_
    fields := ?_
    parents := ?_ }
  · intro r mem
    obtain ⟨s, start, -, inside⟩ := mem_criteria_of mem
    exact Plan.projectId_of_criteria inside
  · intro r mem
    obtain ⟨s, start, -, inside⟩ := mem_phases_of mem
    exact Plan.projectId_of_phases inside
  · intro q planned
    obtain ⟨section_, _, rfl⟩ := Option.map_eq_some_iff.1 planned
    rfl
  · intro q planned r mem
    obtain ⟨section_, _, rfl⟩ := Option.map_eq_some_iff.1 planned
    obtain ⟨i, there, rfl⟩ := List.mem_mapIdx.1 mem
    rfl
  · intro q planned r mem
    obtain ⟨section_, _, rfl⟩ := Option.map_eq_some_iff.1 planned
    exact Plan.mem_options mem
  · exact fun f planned => (of_form_eq_some planned).1
  · intro f planned r mem
    obtain ⟨-, start, all⟩ := of_form_eq_some planned
    rw [all] at mem
    obtain ⟨d, _, rfl⟩ := List.mem_map.1 mem
    rfl
  · intro i r there parent below
    rcases of_form_cases by_ p user with ⟨_, empty⟩ | ⟨form, start, _, _, all⟩
    · rw [empty] at there
      cases there
    · rw [all] at there ⊢
      exact Plan.parent_in_front there below

/-- The rows of a plan are numbered as the lists of the protocol are, when no two
questions share an id. -/
theorem isNumbered_of {R : UInt32 → UInt32 → Prop} (ascends : p.Ascends R)
    (distinct : ∀ q, (of by_ p user).quality = some q → (q.questions.map (·.id)).Nodup) :
    (of by_ p user).IsNumbered R := by
  refine {
    criteria := ?_
    phases := ?_
    questions := ?_
    options := ?_
    fields := ?_ }
  · rcases of_screening_cases by_ p user with ⟨_, none, _⟩ | ⟨s, start, screening, all, _⟩
    · rw [none]
      exact List.Pairwise.nil
    · rw [all]
      exact Plan.criteria_ascending (ascends.criteria s screening)
  · rcases of_screening_cases by_ p user with ⟨_, _, none⟩ | ⟨s, start, screening, _, all⟩
    · rw [none]
      exact List.Pairwise.nil
    · rw [all]
      exact Plan.phases_ascending (ascends.phases s screening)
  · intro q planned
    obtain ⟨section_, quality, rfl⟩ := Option.map_eq_some_iff.1 planned
    exact Plan.questions_ascending (ascends.questions section_ quality)
  · intro q planned
    have apart := distinct q planned
    obtain ⟨section_, quality, rfl⟩ := Option.map_eq_some_iff.1 planned
    exact Plan.quality_options_ascending (ascends.responses section_ quality) apart
  · rcases of_form_cases by_ p user with ⟨_, empty⟩ | ⟨form, start, _, _, all⟩
    · rw [empty]
      exact List.Pairwise.nil
    · rw [all]
      exact Plan.fields_ascending ascends.fields

end InstallPlan

end LiteratureReview
