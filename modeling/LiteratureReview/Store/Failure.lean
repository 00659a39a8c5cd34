/-
  LiteratureReview.Store.Failure
  ──────────────────────────────
  What can go wrong in the store, and the wording of each cause.

  A project label that is taken already is told from all other failures by
  the wording of the constraint it breaks.
-/
import LiteratureReview.Store.Tables
import LiteratureReview.Text.Search

namespace LiteratureReview

/-! ## §1. Causes. -/

/-- A constraint that a row breaks. -/
inductive Constraint where
  | notNull (entity : EntityType) (column : String)
  | check (condition : String)
  | unique (entity : EntityType) (columns : List String)
  | reference
  deriving DecidableEq, Repr

/-- A column with its table. -/
def qualified (entity : EntityType) (column : String) : String :=
  entity.tableName ++ "." ++ column

/-- The wording of a broken constraint. -/
def Constraint.message : Constraint → String
  | .notNull entity column => "NOT NULL constraint failed: " ++ qualified entity column
  | .check condition => "CHECK constraint failed: " ++ condition
  | .unique entity columns =>
    "UNIQUE constraint failed: " ++ ", ".intercalate (columns.map (qualified entity))
  | .reference => "FOREIGN KEY constraint failed"

/-- What the database engine answers instead of doing what it was asked. -/
inductive EngineError where
  | constraint (broken : Constraint)
  | failure (reason : String)
  | nullValue
  | wrongValue
  deriving DecidableEq, Repr

/-- The wording of an engine error. -/
def EngineError.message : EngineError → String
  | .constraint broken => "SQLite failure: `" ++ broken.message ++ "`"
  | .failure reason => "SQLite failure: `" ++ reason ++ "`"
  | .nullValue => "Null value"
  | .wrongValue => "invalid value type"

/-- Why an operation on the store failed. -/
inductive DatabaseError where
  | query (reason : String)
  | migration (reason : String)
  | noResult
  | invalidState (reason : String)
  | engine (cause : EngineError)
  | data (cause : DataError)
  | other (reason : String)
  deriving DecidableEq, Repr

/-- The wording of a failure. -/
def DatabaseError.message : DatabaseError → String
  | .query reason => "Query failed: " ++ reason
  | .migration reason => "Migration failed: " ++ reason
  | .noResult => "No result returned"
  | .invalidState reason => "Invalid state: " ++ reason
  | .engine cause => "libSQL error: " ++ cause.message
  | .data cause => cause.message
  | .other reason => reason

/-! ## §2. Label conflicts. -/

/-- The constraint that keeps project labels apart. -/
def labelConstraint : Constraint := .unique .project ["label"]

/-- The failure means that a project label is taken: so says its wording. -/
def DatabaseError.isLabelConflict : DatabaseError → Bool
  | .engine cause => Text.contains cause.message labelConstraint.message
  | .query reason => Text.contains reason labelConstraint.message
  | _ => false

end LiteratureReview
