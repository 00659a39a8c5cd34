/-
  LiteratureReview.CommandLine.Grammar
  ────────────────────────────────────
  What may stand on a command line.

  A command line has levels: the options before a command's name, and what
  follows it.  A `Grammar` lists what a level takes; a `Halt` is a reason
  not to carry a command out.
-/

namespace LiteratureReview.CommandLine

/-! ## §1. Parameters. -/

/-- What a parameter does. -/
inductive Effect where
  /-- It takes a value of some form. -/
  | value (accepts : String → Bool)
  /-- It is either given or not. -/
  | flag
  /-- It asks for help. -/
  | help
  /-- It asks for the version. -/
  | version

/-- An option, or something that is told by its position. -/
structure Parameter where
  name : String
  short : Option Char := none
  effect : Effect

/-- Any text will do. -/
def anyText : Effect := .value fun _ => true

/-- Any text but the empty one will do. -/
def someText : Effect := .value fun s => !s.isEmpty

/-- What one level takes. -/
structure Grammar where
  options : List Parameter
  positionals : List Parameter := []
  /-- The names that lead to the next level. -/
  commands : List String := []

/-! ## §2. Reasons to halt. -/

/-- Why there is no command to carry out. -/
inductive Halt where
  | help
  | version
  /-- Nothing is given at all. -/
  | nothing
  /-- Options are given, but no command. -/
  | noCommand
  | unknownCommand (name : String)
  | unknownArgument (word : String)
  /-- A parameter is given twice on one level. -/
  | repeated (name : String)
  /-- A parameter without its value. -/
  | missingValue (name : String)
  /-- A parameter with a value that is not of its form. -/
  | wrongValue (name value : String)
  /-- A value for a parameter that takes none. -/
  | unneededValue (name value : String)
  /-- A parameter that has to be given is not. -/
  | missingArgument (name : String)
  deriving DecidableEq, Repr

end LiteratureReview.CommandLine
