/-
  LiteratureReview.Store.Database
  ───────────────────────────────
  The rows of all tables, and adding, changing and deleting rows under the
  constraints of their tables.

  A statement is carried out as a whole or not at all.  Of several
  constraints that a row breaks, the one reported is the first of: missing
  values, conditions on columns, keys, references; references are looked at
  once the whole statement is done.
-/
import LiteratureReview.Store.Failure

namespace LiteratureReview

/-- A row: a value for every column. -/
abbrev Row := List Cell

/-- The rows of every table, in the order in which they were added. -/
structure Database where
  projects : List Row := []
  members : List Row := []
  configs : List Row := []
  criteria : List Row := []
  phases : List Row := []
  templates : List Row := []
  questions : List Row := []
  options : List Row := []
  forms : List Row := []
  fields : List Row := []
  deriving DecidableEq, Repr

namespace Database

/-! ## §1. Tables. -/

/-- A database without rows. -/
def empty : Database := {}

/-- The rows of a table. -/
def rows (db : Database) : EntityType → List Row
  | .project => db.projects
  | .projectMember => db.members
  | .projectConfig => db.configs
  | .exclusionCriterion => db.criteria
  | .screeningPhase => db.phases
  | .qaTemplate => db.templates
  | .qaQuestion => db.questions
  | .qaOption => db.options
  | .extractionForm => db.forms
  | .extractionField => db.fields

/-- Other rows for a table. -/
def withRows (db : Database) (entity : EntityType) (rows : List Row) : Database :=
  match entity with
  | .project => { db with projects := rows }
  | .projectMember => { db with members := rows }
  | .projectConfig => { db with configs := rows }
  | .exclusionCriterion => { db with criteria := rows }
  | .screeningPhase => { db with phases := rows }
  | .qaTemplate => { db with templates := rows }
  | .qaQuestion => { db with questions := rows }
  | .qaOption => { db with options := rows }
  | .extractionForm => { db with forms := rows }
  | .extractionField => { db with fields := rows }

/-- How many rows each table has, in the order of the kinds of rows. -/
def counts (db : Database) : List Nat :=
  EntityType.all.map fun e => (db.rows e).length

end Database

/-! ## §2. Constraints on a row. -/

namespace EntityType

/-- The value of a row in a column. -/
def cellAt (entity : EntityType) (column : String) (row : Row) : Cell :=
  match entity.layout.position? column with
  | some i => row.getD i .null
  | none => .null

/-- What the columns keep of a row. -/
def convert (entity : EntityType) (row : Row) : Row :=
  List.zipWith (fun (c : Column) v => v.convert c.affinity) entity.layout.columns row

/-- The first missing value. -/
def findMissing (entity : EntityType) (row : Row) : Option Constraint :=
  (entity.layout.columns.zip row).findSome? fun (c, v) =>
    if !c.nullable && v == .null then some (.notNull entity c.name) else none

/-- The first condition that a value does not meet. -/
def findUnmet (entity : EntityType) (row : Row) : Option Constraint :=
  (entity.layout.columns.zip row).findSome? fun (c, v) =>
    match c.check with
    | some k => if k.holds v then none else some (.check (k.text c.name))
    | none => none

/-- Two rows agree in all of some columns. -/
def sameKey (entity : EntityType) (columns : List String) (a b : Row) : Bool :=
  columns.all fun c => (entity.cellAt c a).agrees (entity.cellAt c b)

/-- The first key that a row shares with another row. -/
def findTaken (entity : EntityType) (others : List Row) (row : Row) : Option Constraint :=
  entity.layout.keys.findSome? fun columns =>
    if others.any (entity.sameKey columns row) then some (.unique entity columns) else none

/-- The first constraint that a row breaks, references apart. -/
def findBroken (entity : EntityType) (others : List Row) (row : Row) : Option Constraint :=
  (entity.findMissing row).or ((entity.findUnmet row).or (entity.findTaken others row))

end EntityType

namespace Database

/-- There is a row with this id. -/
def hasId (db : Database) (entity : EntityType) (id : Cell) : Bool :=
  (db.rows entity).any fun row => (entity.cellAt "id" row).agrees id

/-- Every row that a row refers to is there. -/
def referencesHold (db : Database) (entity : EntityType) (row : Row) : Bool :=
  (entity.layout.columns.zip row).all fun (c, v) =>
    match c.owner with
    | some owner => v == .null || db.hasId owner v
    | none => true

/-- Every row that any row refers to is there. -/
def allReferencesHold (db : Database) : Bool :=
  EntityType.all.all fun e => (db.rows e).all (db.referencesHold e)

/-! ## §3. Statements. -/

/-- Add a row at the end of a table. -/
def insert (db : Database) (entity : EntityType) (row : Row) : Except Constraint Database :=
  let row := entity.convert row
  match entity.findBroken (db.rows entity) row with
  | some broken => .error broken
  | none =>
    let after := db.withRows entity (db.rows entity ++ [row])
    if after.referencesHold entity row then .ok after else .error .reference

/-- Which rows a statement is about: all, or those with a value in a column. -/
structure Selection where
  column : Option (String × Cell) := none

/-- The place of a column, or the complaint that there is none of that name. -/
def position (entity : EntityType) (column : String) : Except EngineError Nat :=
  match entity.layout.position? column with
  | some i => .ok i
  | none => .error (.failure ("no such column: " ++ column))

/-- A value as it is compared with those of a column. -/
def comparable (entity : EntityType) (i : Nat) (v : Cell) : Cell :=
  match entity.layout.columns[i]? with
  | some c => v.convert c.affinity
  | none => v

/-- The test that a selection makes. -/
def chooses (entity : EntityType) (s : Selection) : Except EngineError (Row → Bool) :=
  match s.column with
  | none => .ok fun _ => true
  | some (column, v) => do
    let i ← position entity column
    return fun row => (row.getD i .null).agrees (comparable entity i v)

/-- Change the chosen rows one after the other, each against all others as
they stand by then. -/
def changeRows (entity : EntityType) (chosen : Row → Bool) (change : Row → Row)
    (done : List Row) : List Row → Except Constraint (List Row)
  | [] => .ok done
  | row :: rest =>
    if chosen row then
      match entity.findBroken (done ++ rest) (change row) with
      | some broken => .error broken
      | none => changeRows entity chosen change (done ++ [change row]) rest
    else changeRows entity chosen change (done ++ [row]) rest

/-- Check the references of a changed database. -/
def settle (db : Database) : Except EngineError Database :=
  if db.allReferencesHold then .ok db else .error (.constraint .reference)

/-- Set a column of the chosen rows; the answer tells how many there are. -/
def update (db : Database) (entity : EntityType) (column : String) (v : Cell) (s : Selection) :
    Except EngineError (Database × Nat) := do
  let i ← position entity column
  let chosen ← chooses entity s
  let change (row : Row) := row.set i (comparable entity i v)
  let rows ← (changeRows entity chosen change [] (db.rows entity)).mapError EngineError.constraint
  let after ← (db.withRows entity rows).settle
  return (after, (db.rows entity).countP chosen)

/-- Delete the chosen rows; the answer tells how many there are. -/
def delete (db : Database) (entity : EntityType) (s : Selection) :
    Except EngineError (Database × Nat) := do
  let chosen ← chooses entity s
  let after ← (db.withRows entity ((db.rows entity).filter fun row => !chosen row)).settle
  return (after, (db.rows entity).countP chosen)

end Database

end LiteratureReview
