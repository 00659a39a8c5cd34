/-
  LiteratureReview.Settings.Tree
  ──────────────────────────────
  Settings as they are written, before it is known whether they fit: trees
  of tables whose nodes know where they come from.

  Trees are laid over each other table by table, so a source decides about
  exactly the keys that it sets.
-/
import LiteratureReview.Decimal.Notation
import LiteratureReview.Text.Quoted

namespace LiteratureReview

open Decimal

/-- Where a setting comes from. -/
inductive Source where
  | builtIn
  | file (path : String)
  | environment
  deriving DecidableEq, Repr

/-- A single value. -/
inductive Scalar where
  | bool (value : Bool)
  | unsigned (value : Nat)
  | signed (value : Int)
  | float (value : Double)
  | text (value : String)
  deriving DecidableEq, Repr

/-- Settings and their sources. -/
inductive Tree where
  | leaf (source : Source) (value : Scalar)
  | list (source : Source) (items : List Tree)
  | table (source : Source) (members : List (String × Tree))
  deriving Repr

namespace Tree

/-! ## §1. Access. -/

/-- Where a tree comes from. -/
def source : Tree → Source
  | .leaf s _ | .list s _ | .table s _ => s

/-- The tree under a key. -/
def get? (t : Tree) (key : String) : Option Tree :=
  match t with
  | .table _ members => members.lookup key
  | _ => none

/-- The tree at the end of a path of keys. -/
def at? (t : Tree) : List String → Option Tree
  | [] => some t
  | key :: rest => (t.get? key).bind fun u => u.at? rest

/-! ## §2. Layers. -/

/-- Set a key. -/
def put (key : String) (t : Tree) : List (String × Tree) → List (String × Tree)
  | [] => [(key, t)]
  | (k, u) :: rest => if k = key then (k, t) :: rest else (k, u) :: put key t rest

mutual

/-- One tree over another: tables key by key, anything else as a whole. -/
def overlay (below : Tree) : Tree → Tree
  | .table s members =>
    match below with
    | .table _ old => .table s (overlayMembers old members)
    | _ => .table s members
  | .leaf s v => .leaf s v
  | .list s items => .list s items

/-- Members over those of another table. -/
def overlayMembers (old : List (String × Tree)) : List (String × Tree) → List (String × Tree)
  | [] => old
  | (key, t) :: rest =>
    let merged := match old.lookup key with
      | some below => overlay below t
      | none => t
    overlayMembers (put key merged old) rest

end

/-- A tree that holds another at the end of a path of keys. -/
def nest (s : Source) (path : List String) (t : Tree) : Tree :=
  path.foldr (fun key u => .table s [(key, u)]) t

/-! ## §3. Complaints. -/

/-- A scalar as complaints name it. -/
def Scalar.describe : Scalar → String
  | .bool b => "bool " ++ (if b then "true" else "false")
  | .unsigned n => "unsigned int `" ++ toString n ++ "`"
  | .signed i => "signed int `" ++ toString i ++ "`"
  | .float x => "float `" ++ x.render Layout.positional ++ "`"
  | .text s => "string " ++ Text.quoted s

/-- A tree as complaints name it. -/
def describe : Tree → String
  | .leaf _ v => Scalar.describe v
  | .list .. => "sequence"
  | .table .. => "map"

/-- Why a tree does not fit. -/
inductive Misfit where
  | wrongType (found expected : String)
  | wrongLength (count : Nat) (expected : String)
  | missing (field : String)
  deriving DecidableEq, Repr

/-- The wording of a misfit. -/
def Misfit.message : Misfit → String
  | .wrongType found expected => "invalid type: found " ++ found ++ ", expected " ++ expected
  | .wrongLength n expected => "invalid length " ++ toString n ++ ", expected " ++ expected
  | .missing field => "missing field `" ++ field ++ "`"

/-- A misfit, the keys that lead to it, and the source it comes from. -/
structure Fault where
  path : List String
  source : Source
  misfit : Misfit
  deriving DecidableEq, Repr

/-- A key as the source writes it. -/
def keyText (s : Source) (path : List String) : String :=
  match s with
  | .environment => ".".intercalate (path.map String.toUpper)
  | .builtIn | .file _ => ".".intercalate ("default" :: path)

/-- The wording of a fault. -/
def Fault.message (f : Fault) : String :=
  f.misfit.message
    ++ (if f.path.isEmpty then "" else " for key " ++ Text.quoted (keyText f.source f.path))
    ++ match f.source with
      | .builtIn => ""
      | .file path => " in " ++ path ++ " TOML file"
      | .environment => " in `SIFT_` environment variable(s)"

end Tree

end LiteratureReview
