/-
  LiteratureReview.Proofs.Installation.Mirroring
  ──────────────────────────────────────────────
  The rows of a plan beside the lists of its protocol.

  Every entry of a list becomes one row, at the position of the entry:
  nothing is lost, doubled or put elsewhere (`numbered_mapIdx`).  Where no
  phase is declared there is one all the same; a question and a response make
  one option, found where their numbers say (`getElem?_options`).

    • `QualityPlan.mirrors` — questions and options,
    • `build_mirrors` — all lists.
-/
import LiteratureReview.Proofs.Decimal.Rounding
import LiteratureReview.Proofs.Installation.Outcome
import LiteratureReview.Proofs.Protocol.RoundTrip

namespace LiteratureReview

/-! ## §1. Scores. -/

namespace Decimal.Double

/-- A finite double is above zero when its numerator is. -/
theorem isPositive_iff {x : Double} (finite : x.isFinite = true) :
    x.isPositive = true ↔ 0 < x.numerator := by
  have field : x.exponentField < 2047 := of_decide_eq_true finite
  have inside : x.magnitude ≤ 2047 * twoTo 52 := by
    have fields := x.magnitude_eq_fields
    have rest := x.fractionField_lt
    have most : x.exponentField * twoTo 52 ≤ 2046 * twoTo 52 :=
      Nat.mul_le_mul_right _ (Nat.le_of_lt_succ field)
    omega
  have unit : (0 : Int) < twoTo x.power.toNat := Int.natCast_pos.2 (twoTo_pos _)
  unfold isPositive numerator
  cases negative : x.isNegative with
  | true =>
    have below : (0 : Int) ≤ x.significand * twoTo x.power.toNat :=
      Int.mul_nonneg (Int.natCast_nonneg _) unit.le
    simp only [Bool.not_true, Bool.false_and, Bool.false_eq_true, if_true, false_iff]
    omega
  | false =>
    cases zero : x.isZero with
    | true =>
      -- both fields are zero, and so is the significand
      have none : x.magnitude = 0 := of_decide_eq_true zero
      have fields := x.magnitude_eq_place
      have nothing : x.significand = 0 := by omega
      simp [nothing]
    | false =>
      have some : (0 : Int) < x.significand := Int.natCast_pos.2 (significand_pos zero)
      simp [inside, Int.mul_pos some unit]

end Decimal.Double

/-! ## §2. Lists. -/

section Lists

variable {α β γ : Type}

/-- Rows that are made of the entries of a list at their places, and are numbered by these:
they tell the entries, each with its place. -/
theorem Plan.numbered_mapIdx {make : Nat → α → β} {place : β → UInt32} {told : β → γ}
    {of : α → γ} {items : List α} (few : items.length ≤ positionLimit)
    (placed : ∀ i a, place (make i a) = position i) (tells : ∀ i a, told (make i a) = of a) :
    (items.mapIdx make).map (fun r => (told r, (place r).toNat)) = (items.map of).zipIdx := by
  refine List.ext_getElem (by simp) fun i left right => ?_
  have inside : i < items.length := by simpa using left
  have number := toNat_position (Nat.lt_of_lt_of_le inside few)
  simp [placed, tells, number]

/-- An entry of groups of one length is found by the number of its group and its own. -/
theorem getElem?_flatten_of_length {groups : List (List α)} {size i j : Nat}
    (each : ∀ g ∈ groups, g.length = size) (inside : j < size) :
    groups.flatten[i * size + j]? = groups[i]?.bind (·[j]?) := by
  induction groups generalizing i with
  | nil => rfl
  | cons g rest ih =>
    have first : g.length = size := each g List.mem_cons_self
    have others : ∀ h ∈ rest, h.length = size := fun h mem => each h (List.mem_cons_of_mem _ mem)
    rw [List.flatten_cons]
    cases i with
    | zero =>
      rw [Nat.zero_mul, Nat.zero_add, List.getElem?_append_left (by omega)]
      rfl
    | succ i =>
      have behind : (i + 1) * size + j = g.length + (i * size + j) := by
        rw [Nat.succ_mul, first]
        omega
      rw [behind, List.getElem?_append_right (Nat.le_add_right _ _), Nat.add_sub_cancel_left,
        ih others, List.getElem?_cons_succ]

theorem length_flatten_of_length {groups : List (List α)} {size : Nat}
    (each : ∀ g ∈ groups, g.length = size) : groups.flatten.length = groups.length * size := by
  rw [List.length_flatten, List.map_congr_left each, List.map_const', List.sum_replicate,
    Nat.nsmul_eq_mul]

end Lists

/-! ## §3. Options. -/

namespace Plan

variable {by_ : Provision} {projectId : String} {start i j : Nat} {q : QualitySection}

/-- The options of a quality assessment, grouped by question. -/
def optionGroups (by_ : Provision) (projectId : String) (start : Nat) (q : QualitySection) :
    List (List QaOption) :=
  (quality by_ projectId start q).questions.mapIdx fun i question =>
    options by_ question.id (start + 1 + i * (q.responses.length + 1) + 1) q.responses

theorem options_quality : (quality by_ projectId start q).options =
    (optionGroups by_ projectId start q).flatten := rfl

theorem length_questions : (quality by_ projectId start q).questions.length =
    q.questions.length :=
  List.length_mapIdx

theorem length_of_mem_optionGroups {g : List QaOption}
    (mem : g ∈ optionGroups by_ projectId start q) : g.length = q.responses.length := by
  obtain ⟨i, there, rfl⟩ := List.mem_mapIdx.1 mem
  exact List.length_mapIdx

/-- Every question comes with every response. -/
theorem length_options : (quality by_ projectId start q).options.length =
    q.questions.length * q.responses.length := by
  have groups : (optionGroups by_ projectId start q).length = q.questions.length := by
    rw [optionGroups, List.length_mapIdx, length_questions]
  rw [options_quality, length_flatten_of_length fun _ => length_of_mem_optionGroups, groups]

/-- The option of a question and a response is found where their numbers say. -/
theorem getElem?_options {question : QaQuestion} {response : ResponseSection}
    (asked : (quality by_ projectId start q).questions[i]? = some question)
    (offered : q.responses[j]? = some response) :
    (quality by_ projectId start q).options[i * q.responses.length + j]? =
      some { id := EntityType.qaOption.rowId
               (by_.words (start + 1 + i * (q.responses.length + 1) + 1 + j))
             questionId := question.id
             title := response.title.text
             score := response.score
             isPositive := response.isPositive
             position := position j } := by
  have inside : j < q.responses.length := (List.getElem?_eq_some_iff.1 offered).1
  rw [options_quality, getElem?_flatten_of_length (fun _ => length_of_mem_optionGroups) inside,
    optionGroups, List.getElem?_mapIdx, asked]
  show (options by_ question.id _ q.responses)[j]? = _
  rw [options, List.getElem?_mapIdx, offered]
  rfl

end Plan

/-! ## §4. Quality assessment. -/

/-- The rows of a quality assessment mirror the section they are made of. -/
structure QualityPlan.Mirrors (rows : QualityPlan) (q : QualitySection) : Prop where
  questions : rows.questions.map (fun r => (r.text, r.position.toNat)) =
    (q.questions.map (·.text)).zipIdx
  optionCount : rows.options.length = q.questions.length * q.responses.length
  /-- There is an option for each question and each response. -/
  options : ∀ i j question response, rows.questions[i]? = some question →
    q.responses[j]? = some response →
      ∃ r, rows.options[i * q.responses.length + j]? = some r ∧ r.questionId = question.id ∧
        r.title = response.title.text ∧ r.score = response.score ∧ r.position.toNat = j ∧
          (r.isPositive = true ↔ 0 < response.score.numerator)

theorem QualityPlan.mirrors {by_ : Provision} {projectId : String} {start : Nat}
    {q : QualitySection} (questions : q.questions.length ≤ positionLimit)
    (responses : q.responses.length ≤ positionLimit)
    (finite : ∀ r ∈ q.responses, r.score.isFinite = true) :
    (Plan.quality by_ projectId start q).Mirrors q where
  questions := Plan.numbered_mapIdx questions (fun _ _ => rfl) fun _ _ => rfl
  optionCount := Plan.length_options
  options := by
    intro i j question response asked offered
    have inside : j < q.responses.length := (List.getElem?_eq_some_iff.1 offered).1
    have number := Plan.toNat_position (Nat.lt_of_lt_of_le inside responses)
    have positive := Decimal.Double.isPositive_iff (finite _ (List.mem_of_getElem? offered))
    exact ⟨_, Plan.getElem?_options asked offered, rfl, rfl, rfl, number, positive⟩

/-! ## §5. The plan. -/

namespace InstallPlan

/-- The rows of a plan mirror the lists of a protocol. -/
structure Mirrors (plan : InstallPlan) (p : ReviewProtocol) : Prop where
  criteria : plan.criteria.map (fun r => (r.name, r.position.toNat)) =
    ((p.screening.elim [] (·.exclusionCriteria)).map (·.name.text)).zipIdx
  noPhases : p.screening = none → plan.phases = []
  /-- One phase is made up where none is declared. -/
  defaultPhase : ∀ s, p.screening = some s → s.phases.getD [] = [] →
    ∃ r, plan.phases = [r] ∧ r.title = "Phase 1" ∧ r.description = none ∧ r.fields = none ∧
      r.position = 0
  phases : ∀ s declared, p.screening = some s → s.phases = some declared → declared ≠ [] →
    plan.phases.map (fun r => ((r.title, r.description, r.fields), r.position.toNat)) =
      (declared.map fun d =>
        (d.title.text, d.description, d.fields.map fun names => names.map (·.text))).zipIdx
  noQuality : p.quality = none → plan.quality = none
  quality : ∀ q, p.quality = some q → ∃ rows, plan.quality = some rows ∧ rows.Mirrors q
  fields : plan.fields.map
      (fun r => ((r.name, r.label, r.kind, r.isRequired, r.config), r.position.toNat)) =
    ((flatten p.categories).map fun d =>
      (d.name, d.label, d.kind, d.isRequired, d.config)).zipIdx
  parents : ∀ (i : Nat) r d, plan.fields[i]? = some r → (flatten p.categories)[i]? = some d →
    r.parentId = d.parentIndex.bind fun j => plan.fields[j]?.map (·.id)

variable {by_ : Provision} {p : ReviewProtocol} {user : String}

theorem criteria_of (few : p.HasPositions) :
    (of by_ p user).criteria.map (fun r => (r.name, r.position.toNat)) =
      ((p.screening.elim [] (·.exclusionCriteria)).map (·.name.text)).zipIdx := by
  obtain ⟨absent, none, -⟩ | ⟨s, start, given, all, -⟩ := of_screening_cases by_ p user
  · rw [none, absent]
    rfl
  · rw [all, given]
    exact Plan.numbered_mapIdx (few.criteria s given) (fun _ _ => rfl) fun _ _ => rfl

theorem phases_of_none (absent : p.screening = none) : (of by_ p user).phases = [] := by
  obtain ⟨-, -, none⟩ | ⟨s, start, given, -⟩ := of_screening_cases by_ p user
  · exact none
  · rw [absent] at given
    cases given

/-- The phases of a plan with a screening section. -/
theorem phases_of_some (by_ : Provision) (user : String) {s : ScreeningSection}
    (given : p.screening = some s) :
    ∃ start, (of by_ p user).phases = Plan.phases by_ (of by_ p user).project.id start s := by
  obtain ⟨absent, -⟩ | ⟨other, start, same, -, all⟩ := of_screening_cases by_ p user
  · rw [given] at absent
    cases absent
  · rw [given] at same
    cases same
    exact ⟨start, all⟩

theorem defaultPhase_of {s : ScreeningSection} (given : p.screening = some s)
    (undeclared : s.phases.getD [] = []) :
    ∃ r, (of by_ p user).phases = [r] ∧ r.title = "Phase 1" ∧ r.description = none ∧
      r.fields = none ∧ r.position = 0 := by
  obtain ⟨start, all⟩ := phases_of_some by_ user given
  have declared : s.declaredPhases = [] := undeclared
  rw [all, Plan.phases, declared]
  exact ⟨_, rfl, rfl, rfl, rfl, rfl⟩

theorem phases_of {s : ScreeningSection} {declared : List PhaseSection} (few : p.HasPositions)
    (given : p.screening = some s) (listed : s.phases = some declared) (some : declared ≠ []) :
    (of by_ p user).phases.map
        (fun r => ((r.title, r.description, r.fields), r.position.toNat)) =
      (declared.map fun d =>
        (d.title.text, d.description, d.fields.map fun names => names.map (·.text))).zipIdx := by
  obtain ⟨start, all⟩ := phases_of_some by_ user given
  have same : s.declaredPhases = declared := by
    unfold ScreeningSection.declaredPhases
    rw [listed, Option.getD_some]
  have bound := few.phases s given
  rw [same] at bound
  rw [all, Plan.phases, same]
  cases declared with
  | nil => exact absurd rfl some
  | cons d rest => exact Plan.numbered_mapIdx bound (fun _ _ => rfl) fun _ _ => rfl

/-- The fields of a plan, also where there is no form. -/
theorem exists_fields_of (by_ : Provision) (p : ReviewProtocol) (user : String) :
    ∃ formId start,
      (of by_ p user).fields = (flatten p.categories).map (Plan.fieldOf by_ formId start) := by
  unfold of
  cases enabled : p.extractionEnabled with
  | true => exact ⟨_, _, rfl⟩
  | false =>
    -- there is no form for want of categories
    have nothing : p.categories = [] := by
      simpa [ReviewProtocol.extractionEnabled] using enabled
    refine ⟨"", 0, ?_⟩
    rw [nothing, flatten, flattenUnder, flattenForest]
    rfl

/-- The rows of the quality assessment of a plan. -/
theorem exists_quality_of (by_ : Provision) (p : ReviewProtocol) (user : String) :
    ∃ start, (of by_ p user).quality =
      p.quality.map (Plan.quality by_ (of by_ p user).project.id start) :=
  ⟨_, rfl⟩

theorem fields_of (few : p.HasPositions) :
    (of by_ p user).fields.map
        (fun r => ((r.name, r.label, r.kind, r.isRequired, r.config), r.position.toNat)) =
      ((flatten p.categories).map fun d =>
        (d.name, d.label, d.kind, d.isRequired, d.config)).zipIdx := by
  obtain ⟨formId, start, all⟩ := exists_fields_of by_ p user
  rw [all]
  refine List.ext_getElem (by simp) fun i left right => ?_
  have inside : i < (flatten p.categories).length := by simpa using left
  have number := Plan.toNat_position (Nat.lt_of_lt_of_le inside few.fields)
  simp [Plan.fieldOf, order_getElem inside, number]

/-- Where a descriptor names the place of its parent, the field has the id of the one there. -/
theorem parents_of {i : Nat} {r : ExtractionField} {d : FieldDescriptor}
    (there : (of by_ p user).fields[i]? = some r) (listed : (flatten p.categories)[i]? = some d) :
    r.parentId = d.parentIndex.bind fun j => (of by_ p user).fields[j]?.map (·.id) := by
  obtain ⟨formId, start, all⟩ := exists_fields_of by_ p user
  rw [all] at there ⊢
  rw [List.getElem?_map, listed, Option.map_some] at there
  cases there
  show d.parentIndex.map _ = _
  cases below : d.parentIndex with
  | none => rfl
  | some j =>
    have mem := List.mem_of_getElem? listed
    have front : j < (flatten p.categories).length :=
      Nat.lt_trans (parentIndex_lt mem below) (order_lt mem)
    rw [Option.map_some, Option.bind_some, List.getElem?_map, List.getElem?_eq_getElem front,
      Option.map_some, Option.map_some, Plan.fieldOf, order_getElem front]

/-- **The plan of a protocol mirrors its lists.**  Criteria, phases, questions and fields
are the entries of the lists, in order, each with its place for a position; for each question
there is an option for each response; without phases there is one by default. -/
theorem build_mirrors (decoded : p.IsDecoded) (few : p.HasPositions) :
    ∃ plan, build by_ p user = .ok plan ∧ plan.Mirrors p := by
  obtain ⟨start, quality⟩ := exists_quality_of by_ p user
  refine ⟨of by_ p user, build_eq by_ p user, {
    criteria := criteria_of few
    noPhases := phases_of_none
    defaultPhase := fun s => defaultPhase_of
    phases := fun s declared => phases_of few
    noQuality := ?_
    quality := ?_
    fields := fields_of few
    parents := fun i r d => parents_of }⟩
  · intro absent
    rw [quality, absent, Option.map_none]
  · intro q given
    have finite := (decoded.hasFiniteScores q given).2
    rw [quality, given]
    exact ⟨_, rfl, QualityPlan.mirrors (few.questions q given) (few.responses q given) finite⟩

end InstallPlan

theorem isIdentifier_dose : isIdentifier "dose" = true := rfl

/-- A protocol without declared phases, with two questions, two responses, and two categories
of one name, one below the other. -/
def pairedProtocol : ReviewProtocol where
  project := ⟨⟨"Pairs", rfl⟩, ⟨"Two of each", by decide⟩, none⟩
  screening := some
    { reviewPerPaper := 2
      conflictType := .decision
      conflictResolution := .majority
      exclusionCriteria := [⟨⟨"No control group", by decide⟩⟩, ⟨⟨"No text", by decide⟩⟩]
      sourcePapers := none
      searchStrategy := none
      validationPercentage := none
      assignmentMode := none
      phases := some [] }
  quality := some
    ⟨[⟨"Are patients blinded?", by decide⟩, ⟨"Is it randomised?", by decide⟩],
      [⟨⟨"Mostly", by decide⟩, .ofInt 1⟩, ⟨⟨"No", by decide⟩, .ofInt 0⟩], .ofInt 1⟩
  categories :=
    [.node ⟨⟨"dose", isIdentifier_dose⟩, none, true, none⟩ (.simple .int none none none)
      (some [.node ⟨⟨"dose", isIdentifier_dose⟩, none, false, none⟩
        (.simple .text none none none) none])]
  reporting := none

theorem isDecoded_pairedProtocol : pairedProtocol.IsDecoded := by
  have proper : pairedProtocol.encode.IsProper := by decide +kernel
  exact ⟨.free, pairedProtocol.encode, proper.hasProperNumbers, rfl⟩

theorem hasPositions_pairedProtocol : pairedProtocol.HasPositions where
  criteria s given := by cases given; decide
  phases s given := by cases given; decide
  questions q given := by cases given; decide
  responses q given := by cases given; decide
  fields := by decide +kernel

/-- The last of four options is that of the second response to the second question. -/
theorem InstallPlan.build_mirrors_paired :
    pairedProtocol.IsDecoded ∧ pairedProtocol.HasPositions ∧
      ∃ plan, build Database.countingProvision pairedProtocol "ada" = .ok plan ∧
        plan.phases.map (·.title) = ["Phase 1"] ∧
        plan.fields.map (fun r => (r.name, r.position.toNat)) = [("dose", 0), ("dose", 1)] ∧
        ∃ rows, plan.quality = some rows ∧ rows.options.length = 4 ∧
          ∃ r, rows.options[3]? = some r ∧ r.title = "No" ∧ r.isPositive = false := by
  refine ⟨isDecoded_pairedProtocol, hasPositions_pairedProtocol, ?_⟩
  obtain ⟨plan, planned, mirrors⟩ := @build_mirrors Database.countingProvision pairedProtocol
    "ada" isDecoded_pairedProtocol hasPositions_pairedProtocol
  obtain ⟨phase, phases, title, -⟩ := mirrors.defaultPhase _ rfl rfl
  obtain ⟨rows, quality, paired⟩ := mirrors.quality _ rfl
  have fields := congrArg (List.map fun e => (e.1.1, e.2)) mirrors.fields
  rw [List.map_map] at fields
  -- the second question is there, as there are two
  have second := congrArg (·[1]?) paired.questions
  simp only [List.getElem?_map] at second
  obtain ⟨question, asked, -⟩ := Option.map_eq_some_iff.1 second
  obtain ⟨r, there, -, told, -, -, positive⟩ := paired.options 1 1 question _ asked rfl
  have unscored : ¬0 < (Decimal.Double.ofInt 0).numerator := by decide +kernel
  refine ⟨plan, planned, ?_, fields, rows, quality, paired.optionCount, r, there, told, ?_⟩
  · rw [phases, List.map_singleton, title]
  · rw [← Bool.not_eq_true, positive]
    exact unscored

end LiteratureReview
