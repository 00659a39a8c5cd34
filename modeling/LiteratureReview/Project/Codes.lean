/-
  LiteratureReview.Project.Codes
  ──────────────────────────────
  The vocabulary of stored projects, and how the words of a protocol map to
  it.

  Each vocabulary is a table of spellings; a spelling is what stands in a
  database column and in JSON alike.  Words a protocol leaves out fall back
  to a fixed code.
-/
import LiteratureReview.Protocol.Document

namespace LiteratureReview

/-! ## §1. Project and members. -/

/-- The state of a project; an installed one is a draft. -/
inductive ProjectStatus where
  | draft
  deriving DecidableEq, Repr

def ProjectStatus.table : List (String × ProjectStatus) := [("DRAFT", .draft)]

/-- The spelling of a status. -/
def ProjectStatus.name : ProjectStatus → String
  | .draft => "DRAFT"

/-- What a member may do. -/
inductive MemberRole where
  | admin
  deriving DecidableEq, Repr

def MemberRole.table : List (String × MemberRole) := [("ADMIN", .admin)]

/-- The spelling of a role. -/
def MemberRole.name : MemberRole → String
  | .admin => "ADMIN"

/-! ## §2. Screening policy. -/

/-- What counts as a conflict between reviewers. -/
inductive ConflictMode where
  | includeExclude
  | allCriteria
  deriving DecidableEq, Repr

namespace ConflictMode

def table : List (String × ConflictMode) :=
  [("INCLUDE_EXCLUDE", .includeExclude), ("ALL_CRITERIA", .allCriteria)]

/-- The spelling of a mode. -/
def name : ConflictMode → String
  | .includeExclude => "INCLUDE_EXCLUDE"
  | .allCriteria => "ALL_CRITERIA"

/-- The code of a conflict type. -/
def ofProtocol : Option ConflictType → ConflictMode
  | some .decision | none => .includeExclude
  | some .criteria => .allCriteria

end ConflictMode

/-- How conflicts are settled. -/
inductive ResolutionRule where
  | majority
  | unanimity
  deriving DecidableEq, Repr

namespace ResolutionRule

def table : List (String × ResolutionRule) :=
  [("MAJORITY", .majority), ("UNANIMITY", .unanimity)]

/-- The spelling of a rule. -/
def name : ResolutionRule → String
  | .majority => "MAJORITY"
  | .unanimity => "UNANIMITY"

/-- The code of a conflict resolution. -/
def ofProtocol : Option ConflictResolution → ResolutionRule
  | some .majority => .majority
  | some .unanimity | none => .unanimity

end ResolutionRule

/-! ## §3. Extraction fields. -/

/-- The kinds of extraction fields. -/
inductive FieldKind where
  | int
  | text
  | string
  | bool
  | real
  | date
  | list
  | dynamicList
  deriving DecidableEq, Repr

namespace FieldKind

def table : List (String × FieldKind) :=
  [("int", .int), ("text", .text), ("string", .string), ("bool", .bool), ("real", .real),
   ("date", .date), ("list", .list), ("dynamic_list", .dynamicList)]

/-- The spelling of a kind. -/
def name : FieldKind → String
  | .int => "int"
  | .text => "text"
  | .string => "string"
  | .bool => "bool"
  | .real => "real"
  | .date => "date"
  | .list => "list"
  | .dynamicList => "dynamic_list"

/-- Scalar types keep their name. -/
def ofScalar : ScalarType → FieldKind
  | .int => .int
  | .text => .text
  | .string => .string
  | .bool => .bool
  | .real => .real
  | .date => .date

/-- The kind of field a category becomes. -/
def ofCategory (c : Category) : FieldKind :=
  match c.kind with
  | .simple type .. => ofScalar type
  | .list .. => .list
  | .independent .. | .dependent .. => .dynamicList

end FieldKind

/-! ## §4. Kinds of rows. -/

/-- The kinds of rows that make up an installed project. -/
inductive EntityType where
  | project
  | projectMember
  | projectConfig
  | exclusionCriterion
  | screeningPhase
  | qaTemplate
  | qaQuestion
  | qaOption
  | extractionForm
  | extractionField
  deriving DecidableEq, Repr

namespace EntityType

/-- Every kind of row, owners before what they own. -/
def all : List EntityType :=
  [.project, .projectMember, .projectConfig, .exclusionCriterion, .screeningPhase, .qaTemplate,
   .qaQuestion, .qaOption, .extractionForm, .extractionField]

/-- The spelling of a kind of row. -/
def name : EntityType → String
  | .project => "project"
  | .projectMember => "project_member"
  | .projectConfig => "project_config"
  | .exclusionCriterion => "exclusion_criterion"
  | .screeningPhase => "screening_phase"
  | .qaTemplate => "qa_template"
  | .qaQuestion => "qa_question"
  | .qaOption => "qa_option"
  | .extractionForm => "extraction_form"
  | .extractionField => "extraction_field"

/-- The table the rows are kept in. -/
def tableName : EntityType → String
  | .project => "projects"
  | .projectMember => "project_members"
  | .projectConfig => "project_configs"
  | .exclusionCriterion => "exclusion_criteria"
  | .screeningPhase => "screening_phases"
  | .qaTemplate => "qa_templates"
  | .qaQuestion => "qa_questions"
  | .qaOption => "qa_options"
  | .extractionForm => "extraction_forms"
  | .extractionField => "extraction_fields"

def table : List (String × EntityType) := all.map fun e => (e.name, e)

end EntityType

end LiteratureReview
