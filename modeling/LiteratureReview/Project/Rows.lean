/-
  LiteratureReview.Project.Rows
  ─────────────────────────────
  The rows an installed project consists of, one type per kind of row, each
  with its JSON form.

  A value that may be missing is written as null.
-/
import LiteratureReview.Extraction.FieldConfig
import LiteratureReview.Time.Text

namespace LiteratureReview

open Json Decimal Time

/-! ## §1. Instants in JSON. -/

/-- Read an instant. -/
def Time.Instant.decode : Decoder Instant :=
  Decoder.checkedText "an RFC 3339 formatted date and time string" fun s =>
    (parseRelaxed s).mapError TimeError.message

/-- An instant inside a text. -/
def Time.Instant.shape : Shape :=
  .text "an RFC 3339 formatted date and time string" fun s =>
    Shape.checkOf Instant.decode (.text s)

/-- Write an instant. -/
def Time.Instant.encode (i : Instant) : Json := .text i.json

/-- A field that may be null or left out, with a place in the list form. -/
def Shape.orNull (name : String) (s : Shape) : String × Bool × Shape :=
  (name, false, .nullable s)

/-! ## §2. Rows. -/

/-- A project. -/
structure Project where
  id : String
  /-- The short name of its protocol in lowercase; no two projects share one. -/
  label : String
  title : String
  description : Option String
  status : ProjectStatus
  createdBy : String
  createdAt : Instant
  deriving DecidableEq

namespace Project

def type : RecordType := ⟨"Project",
  ["id", "label", "title", "description", "status", "created_by", "created_at"]⟩

def shape : Shape := .record type
  [Shape.required "id" .string, Shape.required "label" .string, Shape.required "title" .string,
   Shape.orNull "description" .string, Shape.required "status" (.choiceOf ProjectStatus.table),
   Shape.required "created_by" .string, Shape.required "created_at" Instant.shape]

def decode : Decoder Project := type.decode fun f =>
  Project.mk <$> f.required "id" Decoder.text
    <*> f.required "label" Decoder.text
    <*> f.required "title" Decoder.text
    <*> f.nullable "description" Decoder.text
    <*> f.required "status" (Decoder.choice ProjectStatus.table)
    <*> f.required "created_by" Decoder.text
    <*> f.required "created_at" Instant.decode

def encode (r : Project) : Json :=
  .object (member "id" (.text r.id) ++ member "label" (.text r.label)
    ++ member "title" (.text r.title) ++ member "description" (orNull .text r.description)
    ++ member "status" (.text r.status.name) ++ member "created_by" (.text r.createdBy)
    ++ member "created_at" r.createdAt.encode)

end Project

/-- The membership of a user in a project. -/
structure ProjectMember where
  id : String
  projectId : String
  userId : String
  role : MemberRole
  createdAt : Instant
  deriving DecidableEq

namespace ProjectMember

def type : RecordType := ⟨"ProjectMember",
  ["id", "project_id", "user_id", "role", "created_at"]⟩

def shape : Shape := .record type
  [Shape.required "id" .string, Shape.required "project_id" .string,
   Shape.required "user_id" .string, Shape.required "role" (.choiceOf MemberRole.table),
   Shape.required "created_at" Instant.shape]

def decode : Decoder ProjectMember := type.decode fun f =>
  ProjectMember.mk <$> f.required "id" Decoder.text
    <*> f.required "project_id" Decoder.text
    <*> f.required "user_id" Decoder.text
    <*> f.required "role" (Decoder.choice MemberRole.table)
    <*> f.required "created_at" Instant.decode

def encode (r : ProjectMember) : Json :=
  .object (member "id" (.text r.id) ++ member "project_id" (.text r.projectId)
    ++ member "user_id" (.text r.userId) ++ member "role" (.text r.role.name)
    ++ member "created_at" r.createdAt.encode)

end ProjectMember

/-- The settings of a project, with the protocol it was installed from. -/
structure ProjectConfig where
  id : String
  projectId : String
  screeningEnabled : Bool
  qaEnabled : Bool
  extractionEnabled : Bool
  conflictType : ConflictMode
  conflictResolution : ResolutionRule
  reviewPerPaper : UInt32
  validationPercentage : UInt32
  validationEnabled : Bool
  assignmentMode : AssignmentMode
  sourcePapersEnabled : Bool
  searchStrategyEnabled : Bool
  protocol : ReviewProtocol
  createdAt : Instant

namespace ProjectConfig

def type : RecordType := ⟨"ProjectConfig",
  ["id", "project_id", "screening_enabled", "qa_enabled", "extraction_enabled", "conflict_type",
   "conflict_resolution", "review_per_paper", "validation_percentage", "validation_enabled",
   "validation_assignment_mode", "source_papers_enabled", "search_strategy_enabled", "protocol",
   "created_at"]⟩

def shape : Shape := .record type
  [Shape.required "id" .string, Shape.required "project_id" .string,
   Shape.required "screening_enabled" .bool, Shape.required "qa_enabled" .bool,
   Shape.required "extraction_enabled" .bool,
   Shape.required "conflict_type" (.choiceOf ConflictMode.table),
   Shape.required "conflict_resolution" (.choiceOf ResolutionRule.table),
   Shape.required "review_per_paper" .u32, Shape.required "validation_percentage" .u32,
   Shape.required "validation_enabled" .bool,
   Shape.required "validation_assignment_mode" (.choiceOf AssignmentMode.table),
   Shape.required "source_papers_enabled" .bool, Shape.required "search_strategy_enabled" .bool,
   Shape.required "protocol" ReviewProtocol.shape, Shape.required "created_at" Instant.shape]

def decode : Decoder ProjectConfig := type.decode fun f =>
  ProjectConfig.mk <$> f.required "id" Decoder.text
    <*> f.required "project_id" Decoder.text
    <*> f.required "screening_enabled" Decoder.bool
    <*> f.required "qa_enabled" Decoder.bool
    <*> f.required "extraction_enabled" Decoder.bool
    <*> f.required "conflict_type" (Decoder.choice ConflictMode.table)
    <*> f.required "conflict_resolution" (Decoder.choice ResolutionRule.table)
    <*> f.required "review_per_paper" Decoder.u32
    <*> f.required "validation_percentage" Decoder.u32
    <*> f.required "validation_enabled" Decoder.bool
    <*> f.required "validation_assignment_mode" (Decoder.choice AssignmentMode.table)
    <*> f.required "source_papers_enabled" Decoder.bool
    <*> f.required "search_strategy_enabled" Decoder.bool
    <*> f.required "protocol" ReviewProtocol.decode
    <*> f.required "created_at" Instant.decode

def encode (r : ProjectConfig) : Json :=
  .object (member "id" (.text r.id) ++ member "project_id" (.text r.projectId)
    ++ member "screening_enabled" (.bool r.screeningEnabled)
    ++ member "qa_enabled" (.bool r.qaEnabled)
    ++ member "extraction_enabled" (.bool r.extractionEnabled)
    ++ member "conflict_type" (.text r.conflictType.name)
    ++ member "conflict_resolution" (.text r.conflictResolution.name)
    ++ member "review_per_paper" (u32 r.reviewPerPaper)
    ++ member "validation_percentage" (u32 r.validationPercentage)
    ++ member "validation_enabled" (.bool r.validationEnabled)
    ++ member "validation_assignment_mode" (.text r.assignmentMode.name)
    ++ member "source_papers_enabled" (.bool r.sourcePapersEnabled)
    ++ member "search_strategy_enabled" (.bool r.searchStrategyEnabled)
    ++ member "protocol" r.protocol.encode ++ member "created_at" r.createdAt.encode)

end ProjectConfig

/-- A reason to exclude a paper. -/
structure ExclusionCriterion where
  id : String
  projectId : String
  name : String
  position : UInt32
  createdAt : Instant
  deriving DecidableEq

namespace ExclusionCriterion

def type : RecordType := ⟨"ExclusionCriterion",
  ["id", "project_id", "name", "position", "created_at"]⟩

def shape : Shape := .record type
  [Shape.required "id" .string, Shape.required "project_id" .string,
   Shape.required "name" .string, Shape.required "position" .u32,
   Shape.required "created_at" Instant.shape]

def decode : Decoder ExclusionCriterion := type.decode fun f =>
  ExclusionCriterion.mk <$> f.required "id" Decoder.text
    <*> f.required "project_id" Decoder.text
    <*> f.required "name" Decoder.text
    <*> f.required "position" Decoder.u32
    <*> f.required "created_at" Instant.decode

def encode (r : ExclusionCriterion) : Json :=
  .object (member "id" (.text r.id) ++ member "project_id" (.text r.projectId)
    ++ member "name" (.text r.name) ++ member "position" (u32 r.position)
    ++ member "created_at" r.createdAt.encode)

end ExclusionCriterion

/-- A stage of screening. -/
structure ScreeningPhase where
  id : String
  projectId : String
  title : String
  description : Option String
  /-- The extraction fields shown during the phase, all when there is no list. -/
  fields : Option (List String)
  position : UInt32
  createdAt : Instant
  deriving DecidableEq

namespace ScreeningPhase

def type : RecordType := ⟨"ScreeningPhase",
  ["id", "project_id", "title", "description", "fields", "position", "created_at"]⟩

def shape : Shape := .record type
  [Shape.required "id" .string, Shape.required "project_id" .string,
   Shape.required "title" .string, Shape.orNull "description" .string,
   Shape.orNull "fields" (.list .string), Shape.required "position" .u32,
   Shape.required "created_at" Instant.shape]

def decode : Decoder ScreeningPhase := type.decode fun f =>
  ScreeningPhase.mk <$> f.required "id" Decoder.text
    <*> f.required "project_id" Decoder.text
    <*> f.required "title" Decoder.text
    <*> f.nullable "description" Decoder.text
    <*> f.nullable "fields" (Decoder.list Decoder.text)
    <*> f.required "position" Decoder.u32
    <*> f.required "created_at" Instant.decode

def encode (r : ScreeningPhase) : Json :=
  .object (member "id" (.text r.id) ++ member "project_id" (.text r.projectId)
    ++ member "title" (.text r.title) ++ member "description" (orNull .text r.description)
    ++ member "fields" (orNull texts r.fields) ++ member "position" (u32 r.position)
    ++ member "created_at" r.createdAt.encode)

end ScreeningPhase

/-- The questionnaire of a project. -/
structure QaTemplate where
  id : String
  projectId : String
  minScore : Double
  createdAt : Instant
  deriving DecidableEq

namespace QaTemplate

def type : RecordType := ⟨"QaTemplate",
  ["id", "project_id", "min_score", "created_at"]⟩

def shape : Shape := .record type
  [Shape.required "id" .string, Shape.required "project_id" .string,
   Shape.required "min_score" .double, Shape.required "created_at" Instant.shape]

def decode : Decoder QaTemplate := type.decode fun f =>
  QaTemplate.mk <$> f.required "id" Decoder.text
    <*> f.required "project_id" Decoder.text
    <*> f.required "min_score" Decoder.double
    <*> f.required "created_at" Instant.decode

def encode (r : QaTemplate) : Json :=
  .object (member "id" (.text r.id) ++ member "project_id" (.text r.projectId)
    ++ member "min_score" (double r.minScore) ++ member "created_at" r.createdAt.encode)

end QaTemplate

/-- A question of a questionnaire. -/
structure QaQuestion where
  id : String
  templateId : String
  text : String
  position : UInt32
  deriving DecidableEq

namespace QaQuestion

def type : RecordType := ⟨"QaQuestion",
  ["id", "template_id", "text", "position"]⟩

def shape : Shape := .record type
  [Shape.required "id" .string, Shape.required "template_id" .string,
   Shape.required "text" .string, Shape.required "position" .u32]

def decode : Decoder QaQuestion := type.decode fun f =>
  QaQuestion.mk <$> f.required "id" Decoder.text
    <*> f.required "template_id" Decoder.text
    <*> f.required "text" Decoder.text
    <*> f.required "position" Decoder.u32

def encode (r : QaQuestion) : Json :=
  .object (member "id" (.text r.id) ++ member "template_id" (.text r.templateId)
    ++ member "text" (.text r.text) ++ member "position" (u32 r.position))

end QaQuestion

/-- A possible answer to a question. -/
structure QaOption where
  id : String
  questionId : String
  title : String
  score : Double
  isPositive : Bool
  position : UInt32
  deriving DecidableEq

namespace QaOption

def type : RecordType := ⟨"QaOption",
  ["id", "question_id", "title", "score", "is_positive", "position"]⟩

def shape : Shape := .record type
  [Shape.required "id" .string, Shape.required "question_id" .string,
   Shape.required "title" .string, Shape.required "score" .double,
   Shape.required "is_positive" .bool, Shape.required "position" .u32]

def decode : Decoder QaOption := type.decode fun f =>
  QaOption.mk <$> f.required "id" Decoder.text
    <*> f.required "question_id" Decoder.text
    <*> f.required "title" Decoder.text
    <*> f.required "score" Decoder.double
    <*> f.required "is_positive" Decoder.bool
    <*> f.required "position" Decoder.u32

def encode (r : QaOption) : Json :=
  .object (member "id" (.text r.id) ++ member "question_id" (.text r.questionId)
    ++ member "title" (.text r.title) ++ member "score" (double r.score)
    ++ member "is_positive" (.bool r.isPositive) ++ member "position" (u32 r.position))

end QaOption

/-- The form that data is extracted with. -/
structure ExtractionForm where
  id : String
  projectId : String
  published : Bool
  publishedAt : Option Instant
  createdAt : Instant
  deriving DecidableEq

namespace ExtractionForm

def type : RecordType := ⟨"ExtractionForm",
  ["id", "project_id", "published", "published_at", "created_at"]⟩

def shape : Shape := .record type
  [Shape.required "id" .string, Shape.required "project_id" .string,
   Shape.required "published" .bool, Shape.orNull "published_at" Instant.shape,
   Shape.required "created_at" Instant.shape]

def decode : Decoder ExtractionForm := type.decode fun f =>
  ExtractionForm.mk <$> f.required "id" Decoder.text
    <*> f.required "project_id" Decoder.text
    <*> f.required "published" Decoder.bool
    <*> f.nullable "published_at" Instant.decode
    <*> f.required "created_at" Instant.decode

def encode (r : ExtractionForm) : Json :=
  .object (member "id" (.text r.id) ++ member "project_id" (.text r.projectId)
    ++ member "published" (.bool r.published)
    ++ member "published_at" (orNull Instant.encode r.publishedAt)
    ++ member "created_at" r.createdAt.encode)

end ExtractionForm

/-- A field of an extraction form. -/
structure ExtractionField where
  id : String
  formId : String
  name : String
  label : String
  kind : FieldKind
  isRequired : Bool
  /-- Its place among the fields of the form, in pre-order. -/
  position : UInt32
  config : FieldConfig
  /-- The row of the field directly above. -/
  parentId : Option String
  deriving DecidableEq

namespace ExtractionField

def type : RecordType := ⟨"ExtractionField",
  ["id", "form_id", "name", "label", "field_type", "is_required", "position", "config",
   "parent_id"]⟩

def shape : Shape := .record type
  [Shape.required "id" .string, Shape.required "form_id" .string, Shape.required "name" .string,
   Shape.required "label" .string, Shape.required "field_type" (.choiceOf FieldKind.table),
   Shape.required "is_required" .bool, Shape.required "position" .u32,
   Shape.required "config" FieldConfig.shape, Shape.orNull "parent_id" .string]

def decode : Decoder ExtractionField := type.decode fun f =>
  ExtractionField.mk <$> f.required "id" Decoder.text
    <*> f.required "form_id" Decoder.text
    <*> f.required "name" Decoder.text
    <*> f.required "label" Decoder.text
    <*> f.required "field_type" (Decoder.choice FieldKind.table)
    <*> f.required "is_required" Decoder.bool
    <*> f.required "position" Decoder.u32
    <*> f.required "config" FieldConfig.decode
    <*> f.nullable "parent_id" Decoder.text

def encode (r : ExtractionField) : Json :=
  .object (member "id" (.text r.id) ++ member "form_id" (.text r.formId)
    ++ member "name" (.text r.name) ++ member "label" (.text r.label)
    ++ member "field_type" (.text r.kind.name) ++ member "is_required" (.bool r.isRequired)
    ++ member "position" (u32 r.position) ++ member "config" r.config.encode
    ++ member "parent_id" (orNull .text r.parentId))

end ExtractionField

end LiteratureReview
