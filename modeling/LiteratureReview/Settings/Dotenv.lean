/-
  LiteratureReview.Settings.Dotenv
  ────────────────────────────────
  Files with environment variables.

  A line sets a variable, `export` in front or not.  Values may be quoted,
  hold escapes and the values of other variables, and be followed by a
  comment; a quoted value may go over several lines.  A variable that is set
  already keeps its value.  Reading ends at the first line that is not of
  this form.
-/
import LiteratureReview.Settings.Environment
import LiteratureReview.Text.Alphanumeric
import LiteratureReview.Text.Mark

namespace LiteratureReview.Dotenv

open Environment

/-! ## §1. Lines. -/

/-- How far a line has got. -/
inductive LineState where
  | complete
  | blank
  | escape
  | strong
  | strongEscape
  | weak
  | weakEscape
  deriving DecidableEq, Repr

/-- The state after a letter; nothing where a comment starts. -/
def LineState.next (c : Char) : LineState → Option LineState
  | .blank =>
    if c = '#' then none
    else if c = '\\' then some .escape
    else if c = '"' then some .weak
    else if c = '\'' then some .strong
    else some .complete
  | .escape => some .complete
  | .complete =>
    if Text.isBlank c && c ≠ '\n' && c ≠ '\r' then some .blank
    else if c = '\\' then some .escape
    else if c = '"' then some .weak
    else if c = '\'' then some .strong
    else some .complete
  | .weak => some (if c = '\\' then .weakEscape else if c = '"' then .complete else .weak)
  | .weakEscape => some .weak
  | .strong => some (if c = '\\' then .strongEscape else if c = '\'' then .complete else .strong)
  | .strongEscape => some .strong

/-- A line as it is in the file, its end included, and the rest of the file. -/
def physicalLine : List Char → List Char × List Char
  | [] => ([], [])
  | '\n' :: rest => (['\n'], rest)
  | c :: rest => let (line, after) := physicalLine rest; (c :: line, after)

/-- What a line comes to: more lines have to be read, or none. -/
inductive LineEnd where
  | finished
  | openState (state : LineState)
  | comment (kept : List Char)

/-- Follow a line through its states. -/
def followLine (state : LineState) (kept : List Char) : List Char → LineEnd
  | [] => if state = .complete then .finished else .openState state
  | c :: rest =>
    match state.next c with
    | none => .comment kept.reverse
    | some s => followLine s (c :: kept) rest

/-- A line without its end. -/
def withoutEnd (line : List Char) : List Char :=
  match line.reverse with
  | '\n' :: '\r' :: rest => rest.reverse
  | '\n' :: rest => rest.reverse
  | _ => line

/-- The blanks in front are followed by a comment. -/
def isCommentLine (line : List Char) : Bool :=
  (line.dropWhile Text.isBlank).head? == some '#'

/-- The next line, quoted parts over several lines put together, and what
follows; nothing when the file ends inside of it. -/
def nextLine : Nat → LineState → List Char → List Char → Option (List Char × List Char)
  | 0, _, _, _ => none
  | fuel + 1, state, before, cs =>
    let (line, rest) := physicalLine cs
    if line.isEmpty then none
    else if isCommentLine (before ++ line) then some ([], rest)
    else match followLine state [] line with
      | .finished => some (withoutEnd (before ++ line), rest)
      | .comment kept => some (before ++ kept, rest)
      | .openState s => nextLine fuel s (before ++ line) rest

/-! ## §2. Values. -/

/-- Whether the name of a variable is being read, and in what form. -/
inductive Naming where
  | none
  | plain
  | braced
  deriving DecidableEq, Repr

/-- A value that is being read. -/
structure Progress where
  output : List Char := []
  strong : Bool := false
  weak : Bool := false
  escaped : Bool := false
  ending : Bool := false
  naming : Naming := .none
  name : List Char := []

/-- The value of a variable, empty if it has none. -/
def valueOf (known : String → Option String) (name : List Char) : List Char :=
  ((known (String.ofList name.reverse)).getD "").toList

/-- Put the value of the named variable in. -/
def Progress.substitute (known : String → Option String) (p : Progress) : Progress :=
  { p with output := (valueOf known p.name).reverse ++ p.output, name := [] }

/-- Put a letter in. -/
def Progress.push (c : Char) (p : Progress) : Progress := { p with output := c :: p.output }

/-- A letter while a name is being read. -/
def Progress.nameLetter (known : String → Option String) (c : Char) (p : Progress) : Progress :=
  if Text.isAlphanumeric c then { p with name := c :: p.name }
  else match p.naming with
    | .none => p
    | .plain =>
      if c = '\x7b' && p.name.isEmpty then { p with naming := .braced }
      else
        let p := p.substitute known
        if c = '$' then { p with naming := .plain } else { p.push c with naming := .none }
    | .braced =>
      if c = '\x7d' then { p.substitute known with naming := .none }
      else { p with name := c :: p.name }

/-- A letter of a value; nothing where the value has not the form of one. -/
def Progress.letter (known : String → Option String) (c : Char) (p : Progress) : Option Progress :=
  if p.ending then
    if c = ' ' || c = '\t' then some p else none
  else if p.escaped then
    if ['\\', '\'', '"', '$', ' '].contains c then some { p.push c with escaped := false }
    else if c = 'n' then some { p.push '\n' with escaped := false }
    else none
  else if p.strong then some (if c = '\'' then { p with strong := false } else p.push c)
  else if p.naming ≠ .none then some (p.nameLetter known c)
  else if c = '$' then some { p with naming := .plain }
  else if p.weak then
    some (if c = '"' then { p with weak := false }
      else if c = '\\' then { p with escaped := true } else p.push c)
  else if c = '\'' then some { p with strong := true }
  else if c = '"' then some { p with weak := true }
  else if c = '\\' then some { p with escaped := true }
  else if c = ' ' || c = '\t' then some { p with ending := true }
  else some (p.push c)

/-- The value that is complete now. -/
def Progress.finish (known : String → Option String) (p : Progress) : Option String :=
  if p.naming = .braced || p.strong || p.weak then none
  else some (String.ofList (p.substitute known).output.reverse)

/-- Read a value letter by letter; a comment ends it. -/
def readValue (known : String → Option String) (p : Progress) : List Char → Option String
  | [] => p.finish known
  | c :: rest =>
    if p.ending && c = '#' then p.finish known
    else (p.letter known c).bind fun q => readValue known q rest

/-! ## §3. Assignments. -/

/-- The letters a name may start with. -/
def startsName (c : Char) : Bool := c.isAlpha || c = '_'

/-- The letters of a name. -/
def isNameLetter (c : Char) : Bool := c.isAlphanum || c = '_' || c = '.'

/-- A name, and what follows it and the blanks behind it. -/
def readName (cs : List Char) : Option (String × List Char) :=
  match cs with
  | c :: _ =>
    if startsName c then
      let (name, rest) := cs.span isNameLetter
      some (String.ofList name, rest.dropWhile Text.isBlank)
    else none
  | [] => none

/-- The name that is set, and what follows the equals sign. -/
def readTarget (cs : List Char) : Option (String × List Char) := do
  let (name, rest) ← readName cs
  match rest with
  | '=' :: value => return (name, value)
  | rest =>
    if name = "export" then
      let (name, rest) ← readName rest
      match rest with
      | '=' :: value => return (name, value)
      | _ => none
    else none

/-- What a line says: nothing, or a variable and its value. -/
inductive Line where
  | nothing
  | assignment (name value : String)

/-- Read a line. -/
def readLine (known : String → Option String) (line : List Char) : Option Line :=
  let cs := (line.reverse.dropWhile Text.isBlank).reverse.dropWhile Text.isBlank
  match cs with
  | [] => some .nothing
  | '#' :: _ => some .nothing
  | cs => do
    let (name, rest) ← readTarget cs
    match rest.dropWhile Text.isBlank with
    | [] => return .assignment name ""
    | '#' :: _ => return .assignment name ""
    | value => return .assignment name (← readValue known {} value)

/-! ## §4. Files. -/

/-- Set a variable that is not set yet, behind those that are. -/
def setVariable (name value : String) (vars : Variables) : Variables :=
  if (vars.lookup name).isSome then vars else vars ++ [(name, value)]

/-- Read lines; `written` are the values as the file gives them. -/
def readLines : Nat → Variables → Variables → List Char → Variables
  | 0, vars, _, _ => vars
  | fuel + 1, vars, written, cs =>
    match nextLine (cs.length + 1) .complete [] cs with
    | none => vars
    | some (line, rest) =>
      match readLine (fun n => (vars.lookup n).or (written.lookup n)) line with
      | none => vars
      | some .nothing => readLines fuel vars written rest
      | some (.assignment name value) =>
        readLines fuel (setVariable name value vars) ((name, value) :: written) rest

/-- The variables with those of a file added. -/
def load (file : String) (vars : Variables) : Variables :=
  let cs := Text.withoutMark file.toList
  readLines (cs.length + 1) vars [] cs

end LiteratureReview.Dotenv
