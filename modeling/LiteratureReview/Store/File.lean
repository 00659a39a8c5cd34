/-
  LiteratureReview.Store.File
  ───────────────────────────
  The form in which a database is kept in a file: a JSON object with the
  rows of every table under the table's name.
-/
import LiteratureReview.Json.Encoding
import LiteratureReview.Json.Printer
import LiteratureReview.Json.Reader
import LiteratureReview.Store.Database

namespace LiteratureReview

open Json

/-! ## §1. Writing. -/

/-- Write a value. -/
def Cell.encode : Cell → Json
  | .null => .null
  | .int i => .number (.int i)
  | .real x => .number (.float x)
  | .text s => .text s

/-- Write a database. -/
def Database.encode (db : Database) : Json :=
  .object (EntityType.all.map fun e =>
    (e.tableName, listOf (listOf Cell.encode) (db.rows e)))

/-- The text of the file of a database. -/
def Database.toText (db : Database) : String := db.encode.print

/-! ## §2. Reading. -/

/-- Read a value. -/
def Cell.decode? : Json → Option Cell
  | .null => some .null
  | .number (.int i) => some (.int i)
  | .number (.float x) => some (.real x)
  | .text s => some (.text s)
  | .bool _ | .list _ | .object _ => none

/-- Read a row. -/
def Row.decode? (v : Json) : Option Row := do
  (← v.asList?).mapM Cell.decode?

/-- Read a database; every table has to be there. -/
def Database.decode? (v : Json) : Option Database :=
  EntityType.all.foldlM (fun db e => do
    let rows ← (← (← v.get? e.tableName).asList?).mapM Row.decode?
    return db.withRows e rows) {}

/-- The failure to open a file that is something else than a database. -/
def DatabaseError.notADatabase : DatabaseError :=
  .migration ("001_initial: " ++ (EngineError.failure "file is not a database").message)

/-- The database in a file.  An empty file is an empty database. -/
def Database.ofText (text : String) : Except DatabaseError Database :=
  if text.isEmpty then .ok {}
  else match ((Json.parse text).toOption).bind Database.decode? with
    | some db => .ok db
    | none => .error .notADatabase

end LiteratureReview
