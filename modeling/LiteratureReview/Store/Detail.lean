/-
  LiteratureReview.Store.Detail
  ─────────────────────────────
  All about an installed project in one value: the options of a question
  stand with their question, the fields of a form with their form.
-/
import LiteratureReview.Store.Queries

namespace LiteratureReview

open Json

/-! ## §1. Parts. -/

/-- A question and the answers to choose from. -/
structure QuestionDetail where
  question : QaQuestion
  options : List QaOption

/-- The quality assessment of a project. -/
structure QualityDetail where
  template : QaTemplate
  questions : List QuestionDetail

/-- The extraction form of a project. -/
structure ExtractionDetail where
  form : ExtractionForm
  fields : List ExtractionField

/-- An installed project. -/
structure ProjectDetail where
  summary : ProjectSummary
  members : List ProjectMember
  criteria : List ExclusionCriterion
  phases : List ScreeningPhase
  quality : Option QualityDetail
  extraction : Option ExtractionDetail

/-! ## §2. JSON. -/

/-- The members of an object. -/
def Json.membersOf : Json → List (String × Json)
  | .object members => members
  | _ => []

/-- Write a question; its answers are one member more. -/
def QuestionDetail.encode (d : QuestionDetail) : Json :=
  .object (d.question.encode.membersOf ++ member "options" (listOf QaOption.encode d.options))

/-- Write a quality assessment. -/
def QualityDetail.encode (d : QualityDetail) : Json :=
  .object (member "template" d.template.encode
    ++ member "questions" (listOf QuestionDetail.encode d.questions))

/-- Write an extraction form. -/
def ExtractionDetail.encode (d : ExtractionDetail) : Json :=
  .object (member "form" d.form.encode
    ++ member "fields" (listOf ExtractionField.encode d.fields))

/-- Write a project; parts that it does not have are left out. -/
def ProjectDetail.encode (d : ProjectDetail) : Json :=
  .object (member "summary" d.summary.encode
    ++ member "members" (listOf ProjectMember.encode d.members)
    ++ member "exclusion_criteria" (listOf ExclusionCriterion.encode d.criteria)
    ++ member "screening_phases" (listOf ScreeningPhase.encode d.phases)
    ++ memberIf "quality" QualityDetail.encode d.quality
    ++ memberIf "extraction" ExtractionDetail.encode d.extraction)

/-! ## §3. Reading. -/

namespace Database

/-- A question with its answers. -/
def questionDetail (db : Database) (q : QaQuestion) : Except DatabaseError QuestionDetail := do
  return ⟨q, ← db.optionsOf q.id⟩

/-- The quality assessment of a project, if it has one. -/
def qualityDetail (db : Database) (projectId : String) :
    Except DatabaseError (Option QualityDetail) := do
  (← db.templateOf projectId).mapM fun template => do
    return ⟨template, ← (← db.questionsOf template.id).mapM db.questionDetail⟩

/-- The extraction form of a project, if it has one. -/
def extractionDetail (db : Database) (projectId : String) :
    Except DatabaseError (Option ExtractionDetail) := do
  (← db.formOf projectId).mapM fun form => do
    return ⟨form, ← db.fieldsOf form.id⟩

/-- All about a project. -/
def detailOf (db : Database) (projectId : String) : Except DatabaseError ProjectDetail := do
  let quality ← db.qualityDetail projectId
  let extraction ← db.extractionDetail projectId
  return {
    summary := ← db.summaryOf projectId
    members := ← db.membersOf projectId
    criteria := ← db.criteriaOf projectId
    phases := ← db.phasesOf projectId
    quality
    extraction }

end Database

end LiteratureReview
