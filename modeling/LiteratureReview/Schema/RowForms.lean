/-
  LiteratureReview.Schema.RowForms
  ────────────────────────────────
  The JSON Schemas of stored rows, of flattened categories and of what
  callers are told.
-/
import LiteratureReview.Schema.ProtocolForms

namespace LiteratureReview.Forms

open Json

/-! ## §1. Codes. -/

def projectStatus : Json :=
  described (enumeration ["DRAFT"])
    "Lifecycle status of a project. Installation always creates drafts."

def memberRole : Json :=
  described (enumeration ["ADMIN"]) "Role of a user within a project."

def conflictMode : Json :=
  described (enumeration ["INCLUDE_EXCLUDE", "ALL_CRITERIA"])
    ("Stored classification of reviewer conflicts.\n\n```text\n" ++
     "Decision → INCLUDE_EXCLUDE\nCriteria → ALL_CRITERIA\n(absent) → INCLUDE_EXCLUDE\n```")

def resolutionRule : Json :=
  described (enumeration ["MAJORITY", "UNANIMITY"])
    ("Stored rule for resolving reviewer conflicts.\n\n```text\n" ++
     "Majority  → MAJORITY\nUnanimity → UNANIMITY\n(absent)  → UNANIMITY\n```")

def fieldKind : Json :=
  described (enumeration ["int", "text", "string", "bool", "real", "date", "list", "dynamic_list"])
    "Stored kind of an extraction field."

/-! ## §2. Projects and screening. -/

def project : Json :=
  document "Project" (described (record
    [field "id" text,
     field "label" (described text "Lowercased short name; unique across projects."),
     field "title" text,
     option "description" text,
     field "status" (ref "ProjectStatus"),
     field "created_by" (described text "User ID of the creator."),
     field "created_at" dateTime])
    "A systematic-review project.")
    [("ProjectStatus", projectStatus)]

def projectMember : Json :=
  document "ProjectMember" (described (record
    [field "id" text,
     field "project_id" text,
     field "user_id" text,
     field "role" (ref "MemberRole"),
     field "created_at" dateTime])
    "Membership of a user in a project.")
    [("MemberRole", memberRole)]

def projectConfig : Json :=
  document "ProjectConfig" (described (record
    [field "id" text,
     field "project_id" text,
     field "screening_enabled" bool,
     field "qa_enabled" bool,
     field "extraction_enabled" bool,
     field "conflict_type" (ref "ConflictMode"),
     field "conflict_resolution" (ref "ResolutionRule"),
     field "review_per_paper" u32,
     field "validation_percentage" u32,
     field "validation_enabled" bool,
     field "validation_assignment_mode" (ref "ValidationAssignmentMode"),
     field "source_papers_enabled" bool,
     field "search_strategy_enabled" bool,
     field "protocol" (ref "ReviewProtocol"),
     field "created_at" dateTime])
    ("One-to-one project configuration.\n\n" ++
     "Holds denormalized module toggles for the screening, QA and extraction\n" ++
     "subsystems, plus the validated protocol itself as the source of truth for\n" ++
     "anything not broken out into rows (notably reports)."))
    (("ConflictMode", conflictMode) :: ("ResolutionRule", resolutionRule) ::
     ("ReviewProtocol", protocol) :: protocolParts)

def exclusionCriterion : Json :=
  document "ExclusionCriterion" (described (record
    [field "id" text,
     field "project_id" text,
     field "name" text,
     field "position" u32,
     field "created_at" dateTime])
    "An exclusion criterion reviewers can cite when excluding a paper.")
    []

def screeningPhase : Json :=
  document "ScreeningPhase" (described (record
    [field "id" text,
     field "project_id" text,
     field "title" text,
     option "description" text,
     option "fields" (described (list text)
       "Extraction field names visible during this phase. `None` shows all."),
     field "position" u32,
     field "created_at" dateTime])
    "An ordered stage of paper inclusion/exclusion review.")
    []

/-! ## §3. Quality assessment. -/

def qaTemplate : Json :=
  document "QaTemplate" (described (record
    [field "id" text,
     field "project_id" text,
     field "min_score" double,
     field "created_at" dateTime])
    "Quality-assessment questionnaire attached to a project.")
    []

def qaQuestion : Json :=
  document "QaQuestion" (record
    [field "id" text,
     field "template_id" text,
     field "text" text,
     field "position" u32])
    []

def qaOption : Json :=
  document "QaOption" (described (record
    [field "id" text,
     field "question_id" text,
     field "title" text,
     field "score" double,
     field "is_positive" (described bool "`score > 0`."),
     field "position" u32])
    ("A scored answer to one question. Every question carries an identical copy\n" ++
     "of the shared response set."))
    []

/-! ## §4. Extraction. -/

def extractionForm : Json :=
  document "ExtractionForm" (described (record
    [field "id" text,
     field "project_id" text,
     field "published" bool,
     option "published_at" dateTime,
     field "created_at" dateTime])
    "The published set of fields used to extract data from included papers.")
    []

def fieldConfig : Json :=
  described (record
    [option "values" (described (list text) "Closed-list values."),
     option "dynamic_subtype" (described text "`Independent` or `Dependent` for dynamic lists."),
     option "initial_values" (described (list text) "Seed values of an independent dynamic list."),
     option "reference_name" text,
     option "depends_on" (described text "Field whose value drives a dependent dynamic list."),
     option "pattern" text,
     option "max_char" u32,
     option "initial_value" anything,
     option "numberOfValues" i64,
     field "mandatory" bool,
     option "parent" (described text "Name of the immediate parent category.")])
    ("Variant-specific settings of an extraction field, stored as a JSON blob.\n\n" ++
     "Only the keys relevant to the field's kind are present.")

def extractionField : Json :=
  document "ExtractionField" (described (record
    [field "id" text,
     field "form_id" text,
     field "name" text,
     field "label" text,
     field "field_type" (ref "FieldKind"),
     field "is_required" bool,
     field "position" (described u32 "Position in the flattened (pre-order) field list."),
     field "config" (ref "FieldConfig"),
     option "parent_id" (described text "Row ID of the parent field for sub-categories.")])
    "One node of the flattened category tree.")
    [("FieldConfig", fieldConfig), ("FieldKind", fieldKind)]

def fieldDescriptor : Json :=
  document "FieldDescriptor" (described (record
    [field "name" text,
     field "label" text,
     field "field_type" (ref "FieldKind"),
     field "is_required" bool,
     field "order" (described index "Index of this descriptor in the flattened list."),
     option "parent_index" (described index "Index of the parent descriptor, `None` for roots."),
     field "config" (ref "FieldConfig")])
    "Storage-ready description of one category node.")
    [("FieldConfig", fieldConfig), ("FieldKind", fieldKind)]

/-! ## §5. Answers to callers. -/

def installResult : Json :=
  document "InstallResult" (described (record
    [field "projectId" text,
     field "label" text,
     field "title" text])
    "Minimal handle returned by a successful installation.")
    []

def fieldError : Json :=
  document "FieldError" (described (record
    [field "path" (described text
       ("JSON Pointer of the offending value, e.g. `/category/0/values`.\n" ++
        "Empty for the document root.")),
     field "message" text])
    "One validation violation, addressed by JSON Pointer into the document.")
    []

def projectSummary : Json :=
  document "ProjectSummary" (described (record
    [field "project_id" text,
     field "label" text,
     field "title" text,
     field "status" text,
     field "screening_enabled" bool,
     field "qa_enabled" bool,
     field "extraction_enabled" bool,
     field "exclusion_criteria" u64,
     field "screening_phases" u64,
     field "qa_questions" u64,
     field "qa_options" u64,
     field "extraction_fields" u64,
     field "reports" u64])
    "Row counts for one installed project.")
    []

end LiteratureReview.Forms
