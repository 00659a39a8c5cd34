/-
  LiteratureReview.Json.Cursor
  ────────────────────────────
  A place in a JSON text that is being read, and the readers of the parts
  below a value: blanks, words, numbers, strings.

  A failed step keeps the cursor where it stopped, because the list or
  object around it is closed from there before the place of the fault is
  settled.  Columns count bytes.
-/
import LiteratureReview.Json.Fault

namespace LiteratureReview

open Decimal

/-- The rest of a text, with the line it starts on and the bytes of that line
that came before. -/
structure Cursor where
  rest : List Char
  line : Nat
  column : Nat
  deriving Repr

namespace Cursor

/-! ## §1. Moving. -/

/-- The start of a text. -/
def ofString (s : String) : Cursor := ⟨s.toList, 1, 0⟩

/-- The place after what has been read. -/
def position (c : Cursor) : Position := ⟨c.line, c.column⟩

/-- The cursor behind its next character. -/
def advance (c : Cursor) : Cursor :=
  match c.rest with
  | [] => c
  | '\n' :: rest => ⟨rest, c.line + 1, 0⟩
  | x :: rest => ⟨rest, c.line, c.column + x.utf8Size⟩

/-- The place one byte further, or the end. -/
def peekPosition (c : Cursor) : Position :=
  match c.rest with
  | [] => c.position
  | '\n' :: _ => ⟨c.line + 1, 0⟩
  | _ => ⟨c.line, c.column + 1⟩

/-- Blanks between the parts of a text. -/
def isSpace (x : Char) : Bool :=
  x == ' ' || x == '\n' || x == '\t' || x == '\r'

/-- The cursor behind the blanks. -/
def skipSpace (c : Cursor) : Cursor :=
  go c.rest c.line c.column
where
  go : List Char → Nat → Nat → Cursor
    | '\n' :: rest, line, _ => go rest (line + 1) 0
    | x :: rest, line, column =>
      if isSpace x then go rest line (column + 1) else ⟨x :: rest, line, column⟩
    | [], line, column => ⟨[], line, column⟩

end Cursor

/-! ## §2. Scanning. -/

/-- A failed scan: the cause, its place when that is settled, and where the
cursor stopped. -/
structure ScanFault where
  cause : DecodeError
  place : Option Position
  stop : Cursor

/-- Reading from a cursor. -/
abbrev Scan := StateT Cursor (Except ScanFault)

namespace Scan

/-- The cursor. -/
def here : Scan Cursor := get

/-- The next character, not consumed. -/
def peek : Scan (Option Char) := do
  return (← here).rest.head?

/-- Consume a character. -/
def skip : Scan Unit := modify Cursor.advance

/-- Skip blanks and look at what follows. -/
def peekToken : Scan (Option Char) := do
  modify Cursor.skipSpace
  peek

/-- Fail at the place after what has been read. -/
def failHere {α : Type} (cause : DecodeError) : Scan α := do
  let c ← here
  throw ⟨cause, some c.position, c⟩

/-- Fail at the character that comes next. -/
def failNext {α : Type} (cause : DecodeError) : Scan α := do
  let c ← here
  throw ⟨cause, some c.peekPosition, c⟩

/-- Fail one byte further, the next character being consumed. -/
def failBehind {α : Type} (cause : DecodeError) : Scan α := do
  let c ← here
  throw ⟨cause, some c.peekPosition, c.advance⟩

/-- Fail at a place that the surrounding list or object settles. -/
def failOpen {α : Type} (cause : DecodeError) : Scan α := do
  let c ← here
  throw ⟨cause, none, c⟩

/-- A check whose fault is placed behind what has been read. -/
def checkHere {α : Type} : Except DecodeError α → Scan α
  | .ok a => return a
  | .error cause => failHere cause

/-- A check whose fault is placed by the surrounding list or object. -/
def checkOpen {α : Type} : Except DecodeError α → Scan α
  | .ok a => return a
  | .error cause => failOpen cause

/-- The rest of a word whose first character has been consumed. -/
def word : List Char → Scan Unit
  | [] => return ()
  | x :: more => do
    match ← peek with
    | none => failHere (.malformed .endInValue)
    | some y => if x = y then do skip; word more else failBehind (.malformed .expectedIdent)

/-! ## §3. Numbers. -/

/-- A run of decimal digits, as a number with its count added to the given
ones. -/
def digits (value count : Nat) : Scan (Nat × Nat) := fun c =>
  .ok (go c.rest c.column value count c.line)
where
  go : List Char → Nat → Nat → Nat → Nat → (Nat × Nat) × Cursor
    | x :: rest, column, value, count, line =>
      if x.isDigit then go rest (column + 1) (value * 10 + (x.toNat - 48)) (count + 1) line
      else ((value, count), ⟨x :: rest, line, column⟩)
    | [], column, value, count, line => ((value, count), ⟨[], line, column⟩)

/-- The next character is a digit. -/
def digitNext : Scan Bool := do
  return ((← peek).map Char.isDigit).getD false

/-- An exponent that no double reaches is refused at the digit that settles it. -/
def exponentLimit : Nat := twoTo 31 - 1

/-- The digits of an exponent. -/
def exponentDigits (refuseHuge : Bool) : Nat → Nat → Scan Nat
  | 0, value => return value
  | fuel + 1, value => do
    match ← peek with
    | some x =>
      if x.isDigit then do
        skip
        let next := value * 10 + (x.toNat - 48)
        if exponentLimit < next && refuseHuge then failHere (.malformed .numberOutOfRange)
        exponentDigits refuseHuge fuel next
      else return value
    | none => return value

/-- An exponent after its `e`, if one stands here. -/
def exponent (significant : Bool) : Scan (Option Int) := do
  match ← peek with
  | some x =>
    if x != 'e' && x != 'E' then return none
    skip
    let negative ← match ← peek with
      | some '+' => do skip; pure false
      | some '-' => do skip; pure true
      | _ => pure false
    match ← peek with
    | none => failHere (.malformed .endInValue)
    | some d =>
      if !d.isDigit then failBehind (.malformed .invalidNumber)
      let fuel := (← here).rest.length
      let e ← exponentDigits (significant && !negative) fuel 0
      return some (if negative then -(e : Int) else e)
  | none => return none

/-- The double of the parts of a number. -/
def doubleOf (negative : Bool) (value : Nat) (exponent : Int) : Scan Number := do
  match Double.ofDecimal negative value exponent with
  | some x => return .float x
  | none => failHere (.malformed .numberOutOfRange)

/-- A number after its sign. -/
def unsigned (negative : Bool) : Scan Number := do
  match ← peek with
  | none => failHere (.malformed .endInValue)
  | some x =>
    if !x.isDigit then failBehind (.malformed .invalidNumber)
    let (whole, _) ← if x = '0' then do
        skip
        if ← digitNext then failNext (.malformed .invalidNumber)
        pure (0, 1)
      else digits 0 0
    match ← peek with
    | some '.' =>
      skip
      let (value, places) ← digits whole 0
      if places = 0 then
        match ← peek with
        | some _ => failNext (.malformed .invalidNumber)
        | none => failHere (.malformed .endInValue)
      let e ← exponent (value != 0)
      doubleOf negative value (e.getD 0 - places)
    | _ =>
      match ← exponent (whole != 0) with
      | some e => doubleOf negative whole e
      | none =>
        if negative then
          if whole = 0 || twoTo 63 < whole then doubleOf true whole 0
          else return .int (-whole)
        else if whole < twoTo 64 then return .int whole
        else doubleOf false whole 0

/-- A number. -/
def number : Scan Number := do
  match ← peek with
  | some '-' => do skip; unsigned true
  | _ => unsigned false

/-! ## §4. Strings. -/

/-- The cursor behind a number of bytes. -/
def behindBytes (c : Cursor) (bytes : Nat) : Cursor :=
  go c.rest bytes c.line c.column
where
  go : List Char → Nat → Nat → Nat → Cursor
    | rest, 0, line, column => ⟨rest, line, column⟩
    | [], _, line, column => ⟨[], line, column⟩
    | '\n' :: rest, n + 1, line, _ => go rest n (line + 1) 0
    | x :: rest, n + 1, line, column =>
      if x.utf8Size ≤ n + 1 then go rest (n + 1 - x.utf8Size) line (column + x.utf8Size)
      else ⟨rest, line, column + (n + 1)⟩

/-- The value of a hexadecimal digit. -/
def hexDigit? (x : Char) : Option Nat :=
  if x.isDigit then some (x.toNat - 48)
  else if 'a' ≤ x && x ≤ 'f' then some (x.toNat - 87)
  else if 'A' ≤ x && x ≤ 'F' then some (x.toNat - 55)
  else none

/-- The value of four hexadecimal digits. -/
def hex4? : List Char → Option Nat
  | [a, b, c, d] => do
    let a ← hexDigit? a
    let b ← hexDigit? b
    let c ← hexDigit? c
    let d ← hexDigit? d
    return ((a * 16 + b) * 16 + c) * 16 + d
  | _ => none

/-- Four hexadecimal digits. -/
def hex4 : Scan Nat := do
  let c ← here
  let bytes := (c.rest.take 4).foldl (fun n x => n + x.utf8Size) 0
  if bytes < 4 then
    set (behindBytes c 4)
    failHere (.malformed .endInString)
  match hex4? (c.rest.take 4) with
  | some n => do
    set (behindBytes c 4)
    return n
  | none => do
    set (behindBytes c 4)
    failHere (.malformed .invalidEscape)

/-- One more character of an escape sequence that has to go on with `x`. -/
def expectInEscape (x : Char) : Scan Unit := do
  match ← peek with
  | none => failHere (.malformed .endInString)
  | some y => if x = y then skip else failBehind (.malformed .escapeCutShort)

/-- The character of an escape by code, after its `u`. -/
def unicodeEscape : Scan Char := do
  let n ← hex4
  if 0xDC00 ≤ n && n ≤ 0xDFFF then failHere (.malformed .loneSurrogate)
  if n < 0xD800 || 0xDBFF < n then return Char.ofNat n
  expectInEscape '\\'
  expectInEscape 'u'
  let m ← hex4
  if m < 0xDC00 || 0xDFFF < m then failHere (.malformed .loneSurrogate)
  return Char.ofNat ((n - 0xD800) * 0x400 + (m - 0xDC00) + 0x10000)

/-- The character of an escape with a letter of its own. -/
def shortEscape? (x : Char) : Option Char :=
  [('"', '"'), ('\\', '\\'), ('/', '/'), ('b', Char.ofNat 8), ('f', Char.ofNat 12),
   ('n', '\n'), ('r', '\r'), ('t', '\t')].lookup x

/-- The character of an escape, after its backslash. -/
def escaped : Scan Char := do
  match ← peek with
  | none => failHere (.malformed .endInString)
  | some 'u' => do skip; unicodeEscape
  | some x =>
    match shortEscape? x with
    | some y => do skip; return y
    | none => failBehind (.malformed .invalidEscape)

/-- The characters of a string after its opening quote, last first. -/
def stringTail : Nat → List Char → Scan (List Char)
  | 0, _ => failHere (.malformed .endInString)
  | fuel + 1, acc => do
    match ← peek with
    | none => failHere (.malformed .endInString)
    | some '"' => do skip; return acc
    | some '\\' => do
      skip
      stringTail fuel ((← escaped) :: acc)
    | some x =>
      if x.toNat < 32 then failBehind (.malformed .controlCharacter)
      skip
      stringTail fuel (x :: acc)

/-- A string, the cursor standing at its opening quote. -/
def string : Scan String := do
  skip
  let fuel := (← here).rest.length + 1
  let chars ← stringTail fuel []
  return String.ofList chars.reverse

/-! ## §5. Values that are passed over. -/

/-- Pass over an escape; codes are not paired up. -/
def skipEscape : Scan Unit := do
  match ← peek with
  | none => failHere (.malformed .endInString)
  | some 'u' => do skip; discard hex4
  | some x =>
    if (shortEscape? x).isSome then skip else failBehind (.malformed .invalidEscape)

/-- Pass over the rest of a string. -/
def skipStringTail : Nat → Scan Unit
  | 0 => failHere (.malformed .endInString)
  | fuel + 1 => do
    match ← peek with
    | none => failHere (.malformed .endInString)
    | some '"' => skip
    | some '\\' => do
      skip
      skipEscape
      skipStringTail fuel
    | some x =>
      if x.toNat < 32 then failHere (.malformed .controlCharacter)
      skip
      skipStringTail fuel

/-- Pass over a string, the cursor standing at its opening quote. -/
def skipString : Scan Unit := do
  skip
  skipStringTail ((← here).rest.length + 1)

/-- Fail as someone who has taken the next character, if there is one. -/
def failTaken {α : Type} (cause : DecodeError) : Scan α := do
  match ← peek with
  | none => failHere cause
  | some _ => failBehind cause

/-- Pass over an exponent, if one stands here. -/
def skipExponent : Scan Unit := do
  match ← peek with
  | some x =>
    if x == 'e' || x == 'E' then
      skip
      match ← peek with
      | some '+' | some '-' => skip
      | _ => pure ()
      if ← digitNext then discard (digits 0 0)
      else failTaken (.malformed .invalidNumber)
  | none => return ()

/-- Pass over a number; its size does not matter. -/
def skipNumber : Scan Unit := do
  if (← peek) == some '-' then skip
  match ← peek with
  | some '0' =>
    skip
    if ← digitNext then failNext (.malformed .invalidNumber)
  | some x =>
    if x.isDigit then discard (digits 0 0) else failTaken (.malformed .invalidNumber)
  | none => failTaken (.malformed .invalidNumber)
  match ← peek with
  | some '.' =>
    skip
    let (_, places) ← digits 0 0
    if places = 0 then failNext (.malformed .invalidNumber)
    skipExponent
  | _ => skipExponent

/-! ## §6. Between values. -/

/-- The colon after a key. -/
def colon : Scan Unit := do
  match ← peekToken with
  | some ':' => skip
  | some _ => failNext (.malformed .expectedColon)
  | none => failNext (.malformed .endInObject)

/-- Whether another element follows in a list; the comma before it is
consumed. -/
def moreItems (first : Bool) : Scan Bool := do
  match ← peekToken with
  | some ']' => return false
  | some x =>
    if first then return true
    if x != ',' then failNext (.malformed .expectedListEnd)
    skip
    match ← peekToken with
    | some ']' => failNext (.malformed .trailingComma)
    | some _ => return true
    | none => failNext (.malformed .endInValue)
  | none => failNext (.malformed .endInList)

/-- Whether another member follows in an object; the comma before it is
consumed. -/
def moreMembers (first : Bool) : Scan Bool := do
  match ← peekToken with
  | some '\x7d' => return false
  | some x =>
    if first then
      if x = '"' then return true else failNext (.malformed .keyNotText)
    if x != ',' then failNext (.malformed .expectedObjectEnd)
    skip
    match ← peekToken with
    | some '"' => return true
    | some '\x7d' => failNext (.malformed .trailingComma)
    | some _ => failNext (.malformed .keyNotText)
    | none => failNext (.malformed .endInValue)
  | none => failNext (.malformed .endInObject)

/-- The end of a list. -/
def endList : Scan Unit := do
  match ← peekToken with
  | some ']' => skip
  | some ',' => do
    skip
    match ← peekToken with
    | some ']' => failNext (.malformed .trailingComma)
    | _ => failNext (.malformed .trailingCharacters)
  | some _ => failNext (.malformed .trailingCharacters)
  | none => failNext (.malformed .endInList)

/-- The end of an object. -/
def endObject : Scan Unit := do
  match ← peekToken with
  | some '\x7d' => skip
  | some ',' => failNext (.malformed .trailingComma)
  | some _ => failNext (.malformed .trailingCharacters)
  | none => failNext (.malformed .endInObject)

/-- Where the cursor stands after a scan, failed or not. -/
def stopOf {α : Type} (s : Scan α) (c : Cursor) : Cursor :=
  match s c with
  | .ok (_, d) => d
  | .error f => f.stop

/-- Read what stands between brackets and then the closing one.  A fault of the
inside whose place is open is placed where the closing leaves the cursor. -/
def closedBy {α : Type} (close : Scan Unit) (inside : Scan α) : Scan α := fun c =>
  match inside c with
  | .ok (a, d) =>
    match close d with
    | .ok (_, e) => .ok (a, e)
    | .error f => .error f
  | .error f =>
    match f.place with
    | some _ => .error f
    | none =>
      let e := stopOf close f.stop
      .error { f with place := some e.position, stop := e }

/-- Enter a list or an object, with the levels of nesting that are left. -/
def enter {α : Type} (levels : Nat) (inside : Nat → Scan α) : Scan α := do
  if levels ≤ 1 then failNext (.malformed .tooDeep)
  skip
  inside (levels - 1)

end Scan

end LiteratureReview
