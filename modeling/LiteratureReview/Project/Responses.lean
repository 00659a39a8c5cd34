/-
  LiteratureReview.Project.Responses
  ──────────────────────────────────
  What callers are told: violations of a document, the handle of an
  installed project, and the counts of what it consists of.
-/
import LiteratureReview.Project.Codes

namespace LiteratureReview

open Json

/-- A violation at a place of a document, given as a JSON Pointer. -/
structure FieldError where
  path : String
  message : String
  deriving DecidableEq, Repr

namespace FieldError

def type : RecordType := ⟨"FieldError", ["path", "message"]⟩

def shape : Shape := .record type
  [Shape.required "path" .string, Shape.required "message" .string]

def decode : Decoder FieldError := type.decode fun f =>
  FieldError.mk <$> f.required "path" Decoder.text <*> f.required "message" Decoder.text

def encode (e : FieldError) : Json :=
  .object (member "path" (.text e.path) ++ member "message" (.text e.message))

end FieldError

/-- The violations of a document that was refused. -/
structure ValidationErrors where
  errors : List FieldError
  deriving DecidableEq, Repr

namespace ValidationErrors

/-- The summary of the violations. -/
def message (e : ValidationErrors) : String :=
  "validation failed with " ++ toString e.errors.length ++ " error(s)"

/-- Write the violations. -/
def encode (e : ValidationErrors) : Json := listOf FieldError.encode e.errors

end ValidationErrors

/-- The handle of an installed project. -/
structure InstallResult where
  projectId : String
  label : String
  title : String
  deriving DecidableEq, Repr

namespace InstallResult

def type : RecordType := ⟨"InstallResult", ["projectId", "label", "title"]⟩

def shape : Shape := .record type
  [Shape.required "projectId" .string, Shape.required "label" .string,
   Shape.required "title" .string]

def decode : Decoder InstallResult := type.decode fun f =>
  InstallResult.mk <$> f.required "projectId" Decoder.text
    <*> f.required "label" Decoder.text
    <*> f.required "title" Decoder.text

def encode (r : InstallResult) : Json :=
  .object (member "projectId" (.text r.projectId) ++ member "label" (.text r.label)
    ++ member "title" (.text r.title))

end InstallResult

/-- What an installed project consists of. -/
structure ProjectSummary where
  projectId : String
  label : String
  title : String
  status : String
  screeningEnabled : Bool
  qaEnabled : Bool
  extractionEnabled : Bool
  exclusionCriteria : Nat
  screeningPhases : Nat
  qaQuestions : Nat
  qaOptions : Nat
  extractionFields : Nat
  reports : Nat
  deriving DecidableEq, Repr

namespace ProjectSummary

def type : RecordType := ⟨"ProjectSummary",
  ["project_id", "label", "title", "status", "screening_enabled", "qa_enabled",
   "extraction_enabled", "exclusion_criteria", "screening_phases", "qa_questions",
   "qa_options", "extraction_fields", "reports"]⟩

def shape : Shape := .record type
  [Shape.required "project_id" .string, Shape.required "label" .string,
   Shape.required "title" .string, Shape.required "status" .string,
   Shape.required "screening_enabled" .bool, Shape.required "qa_enabled" .bool,
   Shape.required "extraction_enabled" .bool,
   Shape.required "exclusion_criteria" (.natural "u64"),
   Shape.required "screening_phases" (.natural "u64"),
   Shape.required "qa_questions" (.natural "u64"),
   Shape.required "qa_options" (.natural "u64"),
   Shape.required "extraction_fields" (.natural "u64"),
   Shape.required "reports" (.natural "u64")]

def decode : Decoder ProjectSummary := type.decode fun f =>
  ProjectSummary.mk <$> f.required "project_id" Decoder.text
    <*> f.required "label" Decoder.text
    <*> f.required "title" Decoder.text
    <*> f.required "status" Decoder.text
    <*> f.required "screening_enabled" Decoder.bool
    <*> f.required "qa_enabled" Decoder.bool
    <*> f.required "extraction_enabled" Decoder.bool
    <*> f.required "exclusion_criteria" (Decoder.natural "u64")
    <*> f.required "screening_phases" (Decoder.natural "u64")
    <*> f.required "qa_questions" (Decoder.natural "u64")
    <*> f.required "qa_options" (Decoder.natural "u64")
    <*> f.required "extraction_fields" (Decoder.natural "u64")
    <*> f.required "reports" (Decoder.natural "u64")

def encode (s : ProjectSummary) : Json :=
  .object (member "project_id" (.text s.projectId) ++ member "label" (.text s.label)
    ++ member "title" (.text s.title) ++ member "status" (.text s.status)
    ++ member "screening_enabled" (.bool s.screeningEnabled)
    ++ member "qa_enabled" (.bool s.qaEnabled)
    ++ member "extraction_enabled" (.bool s.extractionEnabled)
    ++ member "exclusion_criteria" (nat s.exclusionCriteria)
    ++ member "screening_phases" (nat s.screeningPhases)
    ++ member "qa_questions" (nat s.qaQuestions) ++ member "qa_options" (nat s.qaOptions)
    ++ member "extraction_fields" (nat s.extractionFields)
    ++ member "reports" (nat s.reports))

end ProjectSummary

/-- A user whose identity has been settled elsewhere. -/
structure AuthIdentity where
  userId : String
  deriving DecidableEq, Repr

namespace AuthIdentity

def type : RecordType := ⟨"AuthIdentity", ["user_id"]⟩

def shape : Shape := .record type [Shape.required "user_id" .string]

def decode : Decoder AuthIdentity := type.decode fun f =>
  AuthIdentity.mk <$> f.required "user_id" Decoder.text

def encode (i : AuthIdentity) : Json :=
  .object (member "user_id" (.text i.userId))

end AuthIdentity

end LiteratureReview
