/-
  LiteratureReview.CommandLine.Invocation
  ───────────────────────────────────────
  The commands, and reading one off the words of a command line.

  General options may stand before and behind the name of a command; behind
  it they count more.
-/
import LiteratureReview.CommandLine.Format
import LiteratureReview.CommandLine.Level

namespace LiteratureReview

open CommandLine

/-! ## §1. Commands. -/

/-- What the program is to do. -/
inductive Command where
  /-- Validate a protocol. -/
  | validate (file : String) (withDefaults : Bool)
  /-- Validate a protocol and install it. -/
  | install (file user : String) (withDefaults : Bool)
  /-- Print all about an installed project. -/
  | details (label : String)
  /-- Print the reports of an installed project. -/
  | reports (label : String)
  /-- Print the names of the schemas, or one of them. -/
  | schema (name : Option String)
  deriving DecidableEq, Repr

/-- A command and the general options. -/
structure Invocation where
  command : Command
  format : Option OutputFormat := none
  quiet : Bool := false
  verbose : Bool := false
  /-- The database that is used instead of the one that is set. -/
  database : Option String := none
  deriving DecidableEq, Repr

/-! ## §2. Grammars. -/

namespace CommandLine

/-- The options of every level. -/
def generalOptions : List Parameter :=
  [⟨"format", some 'f', .value fun s => (OutputFormat.table.lookup s).isSome⟩,
   ⟨"quiet", some 'q', .flag⟩,
   ⟨"verbose", some 'v', .flag⟩,
   ⟨"db", none, anyText⟩,
   ⟨"help", some 'h', .help⟩]

/-- Gaps of a protocol are filled before it is looked at. -/
def withDefaults : Parameter := ⟨"with-defaults", none, .flag⟩

/-- A file to read. -/
def file : Parameter := ⟨"file", none, someText⟩

/-- The label of a project. -/
def label : Parameter := ⟨"label", none, anyText⟩

/-- The commands by name, with what they take. -/
def commands : List (String × Grammar) :=
  [("validate", { options := withDefaults :: generalOptions, positionals := [file] }),
   ("install", { options := ⟨"user", none, anyText⟩ :: withDefaults :: generalOptions,
                 positionals := [file] }),
   ("show", { options := generalOptions, positionals := [label] }),
   ("reports", { options := generalOptions, positionals := [label] }),
   ("schema", { options := ⟨"name", none, anyText⟩ :: generalOptions })]

/-- The name that asks for help about a command. -/
def helpName : String := "help"

/-- What may stand before a command, and the commands. -/
def topGrammar : Grammar where
  options := ⟨"version", some 'V', .version⟩ :: generalOptions
  commands := helpName :: commands.map (·.1)

/-! ## §3. Reading. -/

/-- The command of a name, out of what is given behind it. -/
def commandOf (name : String) (l : Level) : Except Halt Command :=
  let defaults := l.flags.contains withDefaults.name
  match name with
  | "validate" => do return .validate (← l.required file.name) defaults
  | "install" => do
    return .install (← l.required file.name) (← l.required "user") defaults
  | "show" => do return .details (← l.required label.name)
  | "reports" => do return .reports (← l.required label.name)
  | "schema" => .ok (.schema (l.values.lookup "name"))
  | other => .error (.unknownCommand other)

/-- What is said to those who ask for help about a command. -/
def helpAbout : List String → Halt
  | [] => .help
  | [name] => if topGrammar.commands.contains name then .help else .unknownCommand name
  | name :: next :: _ =>
    .unknownCommand (if topGrammar.commands.contains name then next else name)

/-- Read what follows the name of a command. -/
def readCommand (name : String) (words : List String) : Except Halt (Level × Command) := do
  match commands.lookup name with
  | none => .error (.unknownCommand name)
  | some grammar =>
    let (level, _) ← Level.read grammar {} words
    let level ← level.settle
    return (level, ← commandOf name level)

end CommandLine

/-- Read a command line, the name of the program left out. -/
def Invocation.parse (words : List String) : Except Halt Invocation := do
  let (top, found) ← Level.read topGrammar {} words
  match found with
  | none =>
    let top ← top.settle
    .error (if top.isEmpty then .nothing else .noCommand)
  | some (name, rest) =>
    if name = helpName then .error (helpAbout rest)
    else
      let (level, command) ← readCommand name rest
      let top ← top.settle
      let value (key : String) := (level.values.lookup key).or (top.values.lookup key)
      let flag (key : String) := level.flags.contains key || top.flags.contains key
      return {
        command
        format := (value "format").bind fun s => OutputFormat.table.lookup s
        quiet := flag "quiet"
        verbose := flag "verbose"
        database := value "db" }

end LiteratureReview
