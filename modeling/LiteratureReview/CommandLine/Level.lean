/-
  LiteratureReview.CommandLine.Level
  ──────────────────────────────────
  Reading one level of a command line, word by word.

  A word is an option in one of its forms (`--name`, `--name=value`, letters
  behind one dash), the value of the option before it, or is told by its
  position; behind `--` everything is told by its position.  Words that an
  option waits for are looked at when the next parameter comes up, so the
  first complaint is not always about the first word that is wrong.
-/
import LiteratureReview.CommandLine.Grammar

namespace LiteratureReview.CommandLine

/-- How far a level has been read. -/
structure Level where
  flags : List String := []
  values : List (String × String) := []
  /-- The last parameter, not looked at yet, and its value if it has one. -/
  pending : Option (Parameter × Option String) := none
  /-- How many parameters that are told by position have come. -/
  position : Nat := 0
  /-- Whether `--` has come. -/
  onlyPositionals : Bool := false

namespace Level

/-! ## §1. Parameters. -/

/-- Whether nothing is given. -/
def isEmpty (l : Level) : Bool := l.flags.isEmpty && l.values.isEmpty

/-- Take a parameter in. -/
def give (l : Level) (p : Parameter) (value : Option String) : Except Halt Level :=
  match p.effect, value with
  | .help, _ => .error .help
  | .version, _ => .error .version
  | .flag, _ =>
    if l.flags.contains p.name then .error (.repeated p.name)
    else .ok { l with flags := p.name :: l.flags }
  | .value _, none => .error (.missingValue p.name)
  | .value accepts, some v =>
    if (l.values.lookup p.name).isSome then .error (.repeated p.name)
    else if accepts v then .ok { l with values := (p.name, v) :: l.values }
    else .error (.wrongValue p.name v)

/-- Take the last parameter in, if that is not done. -/
def settle (l : Level) : Except Halt Level :=
  match l.pending with
  | none => .ok l
  | some (p, value) => { l with pending := none }.give p value

/-- Take a parameter in behind the last one. -/
def take (l : Level) (p : Parameter) (value : Option String) : Except Halt Level := do
  (← l.settle).give p value

/-- Leave a parameter to be looked at later. -/
def leave (l : Level) (p : Parameter) (value : Option String) : Except Halt Level := do
  return { ← l.settle with pending := some (p, value) }

/-- The last parameter waits for its value. -/
def awaitsValue (l : Level) : Bool :=
  match l.pending with
  | some (_, none) => true
  | _ => false

/-! ## §2. Words. -/

/-- An option by its name, with what stands behind an equals sign. -/
def long (g : Grammar) (l : Level) (name : String) (value : Option String) :
    Except Halt Level :=
  match g.options.find? (·.name = name) with
  | none => .error (.unknownArgument ("--" ++ name))
  | some p =>
    match p.effect, value with
    | .value _, none => l.leave p none
    | .value _, some v => l.take p (some v)
    | _, some v => .error (.unneededValue name v)
    | _, none => l.take p none

/-- Options by their letters; one that takes a value has the rest of the
word, without an equals sign in front, or the next word. -/
def letters (g : Grammar) (l : Level) : List Char → Except Halt Level
  | [] => .ok l
  | c :: rest =>
    match g.options.find? (·.short = some c) with
    | none => .error (.unknownArgument (String.ofList ['-', c]))
    | some p =>
      match p.effect, rest with
      | .value _, [] => l.leave p none
      | .value _, '=' :: v => l.take p (some (String.ofList v))
      | .value _, v => l.take p (some (String.ofList v))
      | _, rest => do letters g (← l.take p none) rest

/-- A word that is told by its position. -/
def positional (g : Grammar) (l : Level) (word : String) : Except Halt Level :=
  match g.positionals[l.position]? with
  | some p => do return { ← l.leave p (some word) with position := l.position + 1 }
  | none =>
    if g.commands.isEmpty || (l.onlyPositionals && g.commands.contains word) then
      .error (.unknownArgument word)
    else .error (.unknownCommand word)

/-- A word that is not the name of a command. -/
def word (g : Grammar) (l : Level) (w : String) : Except Halt Level :=
  if l.onlyPositionals then l.positional g w
  else match w.toList with
    | ['-', '-'] => .ok { l with onlyPositionals := true }
    | '-' :: '-' :: rest =>
      let (name, after) := rest.span (· ≠ '=')
      l.long g (String.ofList name) (after.tail?.map String.ofList)
    | '-' :: c :: rest => l.letters g (c :: rest)
    | _ =>
      match l.pending with
      | some (p, none) => .ok { l with pending := some (p, some w) }
      | _ => l.positional g w

/-! ## §3. Levels. -/

/-- Read words up to the name of a command; what follows the name belongs to
the next level. -/
def read (g : Grammar) (l : Level) : List String →
    Except Halt (Level × Option (String × List String))
  | [] => .ok (l, none)
  | w :: rest =>
    if !l.onlyPositionals && !l.awaitsValue && g.commands.contains w then
      .ok (l, some (w, rest))
    else do read g (← l.word g w) rest

/-- A value that has to be given. -/
def required (l : Level) (name : String) : Except Halt String :=
  match l.values.lookup name with
  | some v => .ok v
  | none => .error (.missingArgument name)

end Level

end LiteratureReview.CommandLine
