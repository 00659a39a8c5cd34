/-
  LiteratureReview.Json.Pointer
  ─────────────────────────────
  Places inside a JSON value, and their text as JSON Pointers.
-/
import LiteratureReview.Json.Basic

namespace LiteratureReview

/-- One step into a value. -/
inductive Step where
  | member (key : String)
  | element (index : Nat)
  deriving DecidableEq, Repr

/-- The way from a value to one inside it, outermost step first. -/
abbrev Pointer := List Step

namespace Step

/-- A key with the two letters replaced that a pointer gives a meaning to. -/
def escape (key : String) : String :=
  String.join (key.toList.map fun c =>
    if c = '~' then "~0" else if c = '/' then "~1" else c.toString)

/-- The text of a step. -/
def render : Step → String
  | .member key => "/" ++ escape key
  | .element index => "/" ++ toString index

end Step

/-- The text of a pointer: empty for the value itself. -/
def Pointer.render (p : Pointer) : String :=
  String.join (p.map Step.render)

namespace Json

/-- The value one step further in. -/
def step? (v : Json) : Step → Option Json
  | .member key => v.get? key
  | .element index =>
    match v with
    | .list items => items[index]?
    | _ => none

/-- The value at a place. -/
def at? (v : Json) : Pointer → Option Json
  | [] => some v
  | s :: rest => (v.step? s).bind fun w => w.at? rest

end Json

end LiteratureReview
