/-
  LiteratureReview.Installation.Plan
  ──────────────────────────────────
  Every row that installing a protocol creates, before anything is written.

  The plan of a protocol is a function of the protocol, the creator, the
  time, and a sequence of random words: row number `n` of the plan, in the
  order in which ids are drawn, has the id made of word number `n`.  The
  order is: project, member, configuration, criteria, phases, template, each
  question followed by its options, form, fields.
-/
import LiteratureReview.Extraction.Flatten
import LiteratureReview.Project.Responses
import LiteratureReview.Project.RowId
import LiteratureReview.Project.Rows
import LiteratureReview.Store.Failure

namespace LiteratureReview

open Time

/-- The rows of a quality assessment, options grouped by question. -/
structure QualityPlan where
  template : QaTemplate
  questions : List QaQuestion
  options : List QaOption

/-- The rows of an installation. -/
structure InstallPlan where
  project : Project
  member : ProjectMember
  config : ProjectConfig
  criteria : List ExclusionCriterion
  phases : List ScreeningPhase
  quality : Option QualityPlan
  form : Option ExtractionForm
  /-- Every field stands after the field it belongs to. -/
  fields : List ExtractionField

/-- What every row of a plan is made with. -/
structure Provision where
  /-- The random words of the ids. -/
  words : Nat → UInt64
  /-- The time on every row. -/
  now : Instant

namespace Plan

/-! ## §1. Defaults. -/

/-- Reviewers of a paper when there is no screening section. -/
def defaultReviewers : UInt32 := 2

/-- Percentage of papers that are checked when the protocol does not say. -/
def defaultValidationPercentage : UInt32 := 20

/-- Title of the phase when screening declares none. -/
def defaultPhaseTitle : String := "Phase 1"

/-- A position in a list, as far as positions go. -/
def position (i : Nat) : UInt32 := UInt32.ofNat (min i (Decimal.twoTo 32 - 1))

/-! ## §2. Configuration. -/

/-- The percentage of papers that are checked. -/
def validationPercentage (p : ReviewProtocol) : UInt32 :=
  (p.screening.bind (·.validationPercentage)).getD defaultValidationPercentage

/-- The configuration of a project. -/
def config (by_ : Provision) (projectId : String) (p : ReviewProtocol) : ProjectConfig where
  id := EntityType.projectConfig.rowId (by_.words 2)
  projectId := projectId
  screeningEnabled := p.screeningEnabled
  qaEnabled := p.qualityEnabled
  extractionEnabled := p.extractionEnabled
  conflictType := .ofProtocol (p.screening.map (·.conflictType))
  conflictResolution := .ofProtocol (p.screening.map (·.conflictResolution))
  reviewPerPaper := (p.screening.map (·.reviewPerPaper)).getD defaultReviewers
  validationPercentage := validationPercentage p
  validationEnabled := 0 < validationPercentage p
  assignmentMode := (p.screening.bind (·.assignmentMode)).getD .normal
  sourcePapersEnabled := (p.screening.map (·.hasSourcePapers)).getD false
  searchStrategyEnabled := (p.screening.map (·.hasSearchStrategy)).getD false
  protocol := p
  createdAt := by_.now

/-! ## §3. Screening. -/

/-- The exclusion criteria, their words from number `start` on. -/
def criteria (by_ : Provision) (projectId : String) (start : Nat) (s : ScreeningSection) :
    List ExclusionCriterion :=
  s.exclusionCriteria.mapIdx fun i c =>
    { id := EntityType.exclusionCriterion.rowId (by_.words (start + i))
      projectId := projectId
      name := c.name.text
      position := position i
      createdAt := by_.now }

/-- The phases, their words from number `start` on; one without fields of
its own when none is declared. -/
def phases (by_ : Provision) (projectId : String) (start : Nat) (s : ScreeningSection) :
    List ScreeningPhase :=
  match s.declaredPhases with
  | [] =>
    [{ id := EntityType.screeningPhase.rowId (by_.words start)
       projectId := projectId
       title := defaultPhaseTitle
       description := none
       fields := none
       position := 0
       createdAt := by_.now }]
  | declared => declared.mapIdx fun i d =>
    { id := EntityType.screeningPhase.rowId (by_.words (start + i))
      projectId := projectId
      title := d.title.text
      description := d.description
      fields := d.fields.map fun names => names.map (·.text)
      position := position i
      createdAt := by_.now }

/-! ## §4. Quality assessment. -/

/-- The options of one question, their words from number `start` on. -/
def options (by_ : Provision) (questionId : String) (start : Nat)
    (responses : List ResponseSection) : List QaOption :=
  responses.mapIdx fun i r =>
    { id := EntityType.qaOption.rowId (by_.words (start + i))
      questionId := questionId
      title := r.title.text
      score := r.score
      isPositive := r.isPositive
      position := position i }

/-- The template with its questions and options, their words from number
`start` on. -/
def quality (by_ : Provision) (projectId : String) (start : Nat) (q : QualitySection) :
    QualityPlan :=
  let templateId := EntityType.qaTemplate.rowId (by_.words start)
  let stride := q.responses.length + 1
  let questions := q.questions.mapIdx fun i text =>
    { id := EntityType.qaQuestion.rowId (by_.words (start + 1 + i * stride))
      templateId := templateId
      text := text.text
      position := position i : QaQuestion }
  { template :=
      { id := templateId, projectId := projectId, minScore := q.minScore, createdAt := by_.now }
    questions := questions
    options := (questions.mapIdx fun i question =>
      options by_ question.id (start + 1 + i * stride + 1) q.responses).flatten }

/-- How many rows a quality assessment has. -/
def qualityCount (q : QualitySection) : Nat :=
  1 + q.questions.length + q.questions.length * q.responses.length

/-! ## §5. Extraction. -/

/-- The field of one descriptor, its parent looked up among the ids. -/
def field (ids : List String) (formId : String) (id : String) (d : FieldDescriptor) :
    Except DatabaseError ExtractionField := do
  let parentId ← match d.parentIndex with
    | none => pure none
    | some i =>
      match ids[i]? with
      | some parent => pure (some parent)
      | none => throw (.invalidState
          ("field " ++ d.name ++ " has no parent at index " ++ toString i))
  return {
    id := id
    formId := formId
    name := d.name
    label := d.label
    kind := d.kind
    isRequired := d.isRequired
    position := position d.order
    config := d.config
    parentId := parentId }

/-- The fields, their words from number `start` on. -/
def fields (by_ : Provision) (formId : String) (start : Nat) (categories : List Category) :
    Except DatabaseError (List ExtractionField) :=
  let descriptors := flatten categories
  let ids := (List.range descriptors.length).map fun i =>
    EntityType.extractionField.rowId (by_.words (start + i))
  (ids.zip descriptors).mapM fun e => field ids formId e.1 e.2

/-- The form, with the word of number `start`. -/
def form (by_ : Provision) (projectId : String) (start : Nat) : ExtractionForm where
  id := EntityType.extractionForm.rowId (by_.words start)
  projectId := projectId
  published := true
  publishedAt := some by_.now
  createdAt := by_.now

end Plan

namespace InstallPlan

/-! ## §6. The plan. -/

/-- The plan of a protocol. -/
def build (by_ : Provision) (p : ReviewProtocol) (user : String) :
    Except DatabaseError InstallPlan := do
  let projectId := EntityType.project.rowId (by_.words 0)
  let criteria := (p.screening.map (Plan.criteria by_ projectId 3)).getD []
  let phasesAt := 3 + criteria.length
  let phases := (p.screening.map (Plan.phases by_ projectId phasesAt)).getD []
  let qualityAt := phasesAt + phases.length
  let formAt := qualityAt + (p.quality.map Plan.qualityCount).getD 0
  let form := if p.extractionEnabled then some (Plan.form by_ projectId formAt) else none
  let fields ← match form with
    | some f => Plan.fields by_ f.id (formAt + 1) p.categories
    | none => pure []
  return {
    project :=
      { id := projectId
        label := p.label
        title := p.project.name.text
        description := p.project.description
        status := .draft
        createdBy := user
        createdAt := by_.now }
    member :=
      { id := EntityType.projectMember.rowId (by_.words 1)
        projectId := projectId
        userId := user
        role := .admin
        createdAt := by_.now }
    config := Plan.config by_ projectId p
    criteria := criteria
    phases := phases
    quality := p.quality.map (Plan.quality by_ projectId qualityAt)
    form := form
    fields := fields }

/-- The label the plan claims. -/
def label (plan : InstallPlan) : String := plan.project.label

/-- What the caller is told once the plan is carried out. -/
def result (plan : InstallPlan) : InstallResult :=
  ⟨plan.project.id, plan.project.label, plan.project.title⟩

/-- How many rows the plan writes. -/
def rowCount (plan : InstallPlan) : Nat :=
  3 + plan.criteria.length + plan.phases.length
    + (plan.quality.map fun q => 1 + q.questions.length + q.options.length).getD 0
    + (if plan.form.isSome then 1 else 0) + plan.fields.length

end InstallPlan

end LiteratureReview
