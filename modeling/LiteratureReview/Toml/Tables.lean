/-
  LiteratureReview.Toml.Tables
  ────────────────────────────
  The tables of a document while it is being read.

  A table comes about in one of three ways: by a header of its own, as part
  of a longer header, or as part of a dotted key.  How it came about decides
  what may still be added: a header opens a table that was only part of
  longer headers, a dotted key adds to tables made by dotted keys, and
  nothing is ever set twice.
-/
import LiteratureReview.Toml.Value

namespace LiteratureReview.Toml

/-! ## §1. Nodes. -/

/-- How a table came about. -/
inductive Origin where
  | header
  | longerHeader
  | dottedKey
  deriving DecidableEq, Repr

/-- What stands under a key: a value, a table that may still grow, or an
array of tables, whose last one may still grow. -/
inductive Node where
  | value (v : Value)
  | table (origin : Origin) (members : List (String × Node))
  | tables (last : List (String × Node)) (before : List (List (String × Node)))

/-- The members of a table. -/
abbrev Members := List (String × Node)

namespace Members

/-- The node under a key. -/
def get? (key : String) (ms : Members) : Option Node := ms.lookup key

/-- Put a node under a key, in its place if there is one. -/
def set (key : String) (n : Node) : Members → Members
  | [] => [(key, n)]
  | (k, m) :: rest => if k = key then (k, n) :: rest else (k, m) :: set key n rest

/-! ## §2. Headers. -/

/-- Change the members at the end of a path of headers; tables on the way
that are not there yet are made. -/
def under (change : Members → Option Members) : List String → Members → Option Members
  | [], ms => change ms
  | key :: rest, ms =>
    match ms.get? key with
    | none => (under change rest []).map fun m => ms.set key (.table .longerHeader m)
    | some (.table origin m) =>
      (under change rest m).map fun m => ms.set key (.table origin m)
    | some (.tables last before) =>
      (under change rest last).map fun m => ms.set key (.tables m before)
    | some (.value _) => none

/-- Open a table by its header. -/
def openTable (key : String) (ms : Members) : Option Members :=
  match ms.get? key with
  | none => some (ms.set key (.table .header []))
  | some (.table .longerHeader m) => some (ms.set key (.table .header m))
  | some _ => none

/-- Open the next table of an array of tables. -/
def openElement (key : String) (ms : Members) : Option Members :=
  match ms.get? key with
  | none => some (ms.set key (.tables [] []))
  | some (.tables last before) => some (ms.set key (.tables [] (last :: before)))
  | some _ => none

/-! ## §3. Keys. -/

/-- Set the value at the end of a dotted key.  The table that gets it has to
be made by dotted keys, or be the one that the key starts from (`here`). -/
def insert (here : Bool) (v : Value) : List String → Members → Option Members
  | [], _ => none
  | [key], ms =>
    match ms.get? key with
    | none => if here then some (ms.set key (.value v)) else none
    | some _ => none
  | key :: rest, ms =>
    match ms.get? key with
    | none => (insert true v rest []).map fun m => ms.set key (.table .dottedKey m)
    | some (.table .dottedKey m) =>
      (insert true v rest m).map fun m => ms.set key (.table .dottedKey m)
    | some (.table .longerHeader m) =>
      (insert false v rest m).map fun m => ms.set key (.table .longerHeader m)
    | some (.tables last before) =>
      (insert false v rest last).map fun m => ms.set key (.tables m before)
    | some (.table .header _) => none
    | some (.value _) => none

end Members

/-! ## §4. Values of nodes. -/

mutual

/-- The value of a node. -/
def Node.toValue : Node → Value
  | .value v => v
  | .table _ ms => .table (Members.toValues ms)
  | .tables last before =>
    .array (Members.toTables before [.table (Members.toValues last)])

/-- The values of members. -/
def Members.toValues : List (String × Node) → List (String × Value)
  | [] => []
  | (key, n) :: rest => (key, n.toValue) :: Members.toValues rest

/-- The tables in front of others, the last one first. -/
def Members.toTables : List (List (String × Node)) → List Value → List Value
  | [], done => done
  | ms :: before, done => Members.toTables before (.table (Members.toValues ms) :: done)

end

end LiteratureReview.Toml
