/-
  LiteratureReview.Store.Tables
  ─────────────────────────────
  The tables of the store: their columns, what a column accepts, which
  columns together are unique, and which row of another table a column
  refers to.
-/
import LiteratureReview.Project.Codes
import LiteratureReview.Store.Cell

namespace LiteratureReview

/-! ## §1. Columns. -/

/-- What a column accepts. -/
inductive Check where
  | names (allowed : List String)
  | flag
  | atLeast (low : Int)
  | between (low high : Int)
  deriving DecidableEq, Repr

namespace Check

/-- A name in quotation marks. -/
def quote (name : String) : String := "'" ++ name ++ "'"

/-- The condition on a column, in words of the database. -/
def text (column : String) : Check → String
  | .names allowed => column ++ " IN (" ++ ", ".intercalate (allowed.map quote) ++ ")"
  | .flag => column ++ " IN (0, 1)"
  | .atLeast low => column ++ " >= " ++ toString low
  | .between low high => column ++ " BETWEEN " ++ toString low ++ " AND " ++ toString high

/-- The value is accepted.  A missing one is no reason for a complaint. -/
def holds (c : Check) (v : Cell) : Bool :=
  v == .null ||
    match c with
    | .names allowed => allowed.any fun a => v.agrees (.text a)
    | .flag => v.agrees (.int 0) || v.agrees (.int 1)
    | .atLeast low => (Cell.int low).le v
    | .between low high => (Cell.int low).le v && v.le (.int high)

end Check

/-- A column of a table. -/
structure Column where
  name : String
  affinity : Affinity
  nullable : Bool := false
  check : Option Check := none
  /-- The kind of row whose id the column holds. -/
  owner : Option EntityType := none
  deriving DecidableEq, Repr

namespace Column

/-- A column of texts. -/
def text (name : String) : Column := { name, affinity := .text }

/-- A column of texts that may be missing. -/
def option (name : String) : Column := { name, affinity := .text, nullable := true }

/-- A column of integers. -/
def integer (name : String) : Column := { name, affinity := .integer }

/-- A column of reals. -/
def real (name : String) : Column := { name, affinity := .real }

/-- A column of truth values. -/
def flag (name : String) : Column := { name, affinity := .integer, check := some .flag }

/-- A column of names out of some. -/
def names (name : String) (allowed : List String) : Column :=
  { name, affinity := .text, check := some (.names allowed) }

/-- A column with the id of a row it belongs to. -/
def belongsTo (name : String) (owner : EntityType) : Column :=
  { name, affinity := .text, owner := some owner }

end Column

/-! ## §2. Layouts. -/

/-- The layout of a table. -/
structure TableLayout where
  columns : List Column
  /-- Columns that are unique together, in the order in which they are checked. -/
  keys : List (List String)
  deriving Repr

/-- The place of a column. -/
def TableLayout.position? (l : TableLayout) (column : String) : Option Nat :=
  l.columns.findIdx? (·.name == column)

open Column in
/-- The layout of the table a kind of row is kept in. -/
def EntityType.layout : EntityType → TableLayout
  | .project =>
    ⟨[option "id", text "label", text "title", option "description",
      names "status" ["DRAFT"], text "created_by", text "created_at"],
     [["label"], ["id"]]⟩
  | .projectMember =>
    ⟨[option "id", belongsTo "project_id" .project, text "user_id",
      names "role" ["ADMIN"], text "created_at"],
     [["project_id", "user_id"], ["id"]]⟩
  | .projectConfig =>
    ⟨[option "id", belongsTo "project_id" .project, flag "screening_enabled",
      flag "qa_enabled", flag "extraction_enabled",
      names "conflict_type" ["INCLUDE_EXCLUDE", "ALL_CRITERIA"],
      names "conflict_resolution" ["MAJORITY", "UNANIMITY"],
      { name := "review_per_paper", affinity := .integer, check := some (.atLeast 1) },
      { name := "validation_percentage", affinity := .integer,
        check := some (.between 0 100) },
      flag "validation_enabled",
      names "validation_assignment_mode" ["Normal", "Veto", "Info"],
      flag "source_papers_enabled", flag "search_strategy_enabled", text "protocol",
      text "created_at"],
     [["project_id"], ["id"]]⟩
  | .exclusionCriterion =>
    ⟨[option "id", belongsTo "project_id" .project, text "name", integer "position",
      text "created_at"],
     [["project_id", "position"], ["id"]]⟩
  | .screeningPhase =>
    ⟨[option "id", belongsTo "project_id" .project, text "title", option "description",
      option "fields", integer "position", text "created_at"],
     [["project_id", "position"], ["id"]]⟩
  | .qaTemplate =>
    ⟨[option "id", belongsTo "project_id" .project, real "min_score", text "created_at"],
     [["project_id"], ["id"]]⟩
  | .qaQuestion =>
    ⟨[option "id", belongsTo "template_id" .qaTemplate, text "text", integer "position"],
     [["template_id", "position"], ["id"]]⟩
  | .qaOption =>
    ⟨[option "id", belongsTo "question_id" .qaQuestion, text "title", real "score",
      flag "is_positive", integer "position"],
     [["question_id", "position"], ["id"]]⟩
  | .extractionForm =>
    ⟨[option "id", belongsTo "project_id" .project, flag "published", option "published_at",
      text "created_at"],
     [["project_id"], ["id"]]⟩
  | .extractionField =>
    ⟨[option "id", belongsTo "form_id" .extractionForm, text "name", text "label",
      names "field_type" ["int", "text", "string", "bool", "real", "date", "list", "dynamic_list"],
      flag "is_required", integer "position", text "config",
      { name := "parent_id", affinity := .text, nullable := true,
        owner := some .extractionField }],
     [["form_id", "position"], ["id"]]⟩

end LiteratureReview
