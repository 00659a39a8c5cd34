/-
  LiteratureReview.Store.Queries
  ──────────────────────────────
  Reading installed projects back.

  Whatever belongs to something comes in the order of its positions.  A
  listing fails at the first row that cannot be read.
-/
import LiteratureReview.Project.Responses
import LiteratureReview.Store.Records

namespace LiteratureReview.Database

/-! ## §1. Selecting. -/

/-- The rows with a text in a column. -/
def having (db : Database) (entity : EntityType) (column value : String) : List Row :=
  (db.rows entity).filter fun row => (entity.cellAt column row).agrees (.text value)

/-- Rows by ascending values of a column; rows with one value keep their order. -/
def orderedBy (entity : EntityType) (column : String) (rows : List Row) : List Row :=
  rows.mergeSort fun a b => (entity.cellAt column a).le (entity.cellAt column b)

/-- The rows with a text in a column, by ascending position. -/
def ownedBy (db : Database) (entity : EntityType) (column owner : String) : List Row :=
  orderedBy entity "position" (db.having entity column owner)

/-- Read the first row; there has to be one. -/
def one {α : Type} (read : Row → Except DatabaseError α) : List Row → Except DatabaseError α
  | [] => .error .noResult
  | row :: _ => read row

/-- Read the first row if there is one. -/
def atMostOne {α : Type} (read : Row → Except DatabaseError α) :
    List Row → Except DatabaseError (Option α)
  | [] => .ok none
  | row :: _ => (read row).map some

/-! ## §2. Projects. -/

/-- A project by its id. -/
def project (db : Database) (id : String) : Except DatabaseError Project :=
  one Project.ofRow (db.having .project "id" id)

/-- A project by its label, in whatever case the label is given. -/
def findProject (db : Database) (label : String) : Except DatabaseError (Option Project) :=
  atMostOne Project.ofRow (db.having .project "label" (Text.lowercase label))

/-- All projects by label. -/
def allProjects (db : Database) : Except DatabaseError (List Project) :=
  (orderedBy .project "label" db.projects).mapM Project.ofRow

/-- The members of a project, oldest first. -/
def membersOf (db : Database) (projectId : String) : Except DatabaseError (List ProjectMember) :=
  (orderedBy .projectMember "created_at"
    (orderedBy .projectMember "id" (db.having .projectMember "project_id" projectId))).mapM
    ProjectMember.ofRow

/-- The configuration of a project. -/
def configOf (db : Database) (projectId : String) : Except DatabaseError ProjectConfig :=
  one ProjectConfig.ofRow (db.having .projectConfig "project_id" projectId)

/-- The reports of a project, out of its protocol. -/
def reportsOf (db : Database) (projectId : String) : Except DatabaseError (List Report) :=
  (db.configOf projectId).map fun c => c.protocol.reports

/-! ## §3. What belongs to a project. -/

/-- The exclusion criteria of a project. -/
def criteriaOf (db : Database) (projectId : String) :
    Except DatabaseError (List ExclusionCriterion) :=
  (db.ownedBy .exclusionCriterion "project_id" projectId).mapM ExclusionCriterion.ofRow

/-- The screening phases of a project. -/
def phasesOf (db : Database) (projectId : String) : Except DatabaseError (List ScreeningPhase) :=
  (db.ownedBy .screeningPhase "project_id" projectId).mapM ScreeningPhase.ofRow

/-- The quality template of a project. -/
def templateOf (db : Database) (projectId : String) : Except DatabaseError (Option QaTemplate) :=
  atMostOne QaTemplate.ofRow (db.having .qaTemplate "project_id" projectId)

/-- The questions of a template. -/
def questionsOf (db : Database) (templateId : String) : Except DatabaseError (List QaQuestion) :=
  (db.ownedBy .qaQuestion "template_id" templateId).mapM QaQuestion.ofRow

/-- The options of a question. -/
def optionsOf (db : Database) (questionId : String) : Except DatabaseError (List QaOption) :=
  (db.ownedBy .qaOption "question_id" questionId).mapM QaOption.ofRow

/-- The extraction form of a project. -/
def formOf (db : Database) (projectId : String) : Except DatabaseError (Option ExtractionForm) :=
  atMostOne ExtractionForm.ofRow (db.having .extractionForm "project_id" projectId)

/-- The fields of a form. -/
def fieldsOf (db : Database) (formId : String) : Except DatabaseError (List ExtractionField) :=
  (db.ownedBy .extractionField "form_id" formId).mapM ExtractionField.ofRow

/-! ## §4. Counting. -/

/-- The rows that belong to one of some rows. -/
def belongingTo (db : Database) (entity : EntityType) (column : String) (owner : EntityType)
    (owners : List Row) : List Row :=
  owners.flatMap fun o =>
    (db.rows entity).filter fun row => (entity.cellAt column row).agrees (owner.cellAt "id" o)

/-- How many rows there are of each kind that belongs to a project. -/
def summaryOf (db : Database) (projectId : String) : Except DatabaseError ProjectSummary := do
  let p ← db.project projectId
  let c ← db.configOf projectId
  let templates := db.having .qaTemplate "project_id" projectId
  let questions := db.belongingTo .qaQuestion "template_id" .qaTemplate templates
  let options := db.belongingTo .qaOption "question_id" .qaQuestion questions
  let forms := db.having .extractionForm "project_id" projectId
  return {
    projectId := p.id
    label := p.label
    title := p.title
    status := p.status.name
    screeningEnabled := c.screeningEnabled
    qaEnabled := c.qaEnabled
    extractionEnabled := c.extractionEnabled
    exclusionCriteria := (db.having .exclusionCriterion "project_id" projectId).length
    screeningPhases := (db.having .screeningPhase "project_id" projectId).length
    qaQuestions := questions.length
    qaOptions := options.length
    extractionFields :=
      (db.belongingTo .extractionField "form_id" .extractionForm forms).length
    reports := c.protocol.reports.length }

end LiteratureReview.Database
