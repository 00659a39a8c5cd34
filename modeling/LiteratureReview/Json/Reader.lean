/-
  LiteratureReview.Json.Reader
  ────────────────────────────
  JSON values from text.

  Lists and objects nest at most 127 deep.  A value that nobody asked for is
  passed over without building it (`Scan.skipValue`): nesting is not limited
  there, numbers may be of any size, and codes in strings are not paired.

  The recursion is bounded by the characters that are left, of which every
  step consumes one.
-/
import LiteratureReview.Json.Cursor

namespace LiteratureReview

namespace Scan

/-- The levels of nesting a text may use. -/
def levelLimit : Nat := 128

/-! ## §1. Values. -/

mutual

/-- A value. -/
def value : Nat → Nat → Scan Json
  | 0, _ => failNext (.malformed .endInValue)
  | fuel + 1, levels => do
    match ← peekToken with
    | none => failNext (.malformed .endInValue)
    | some 'n' => do skip; word ['u', 'l', 'l']; return .null
    | some 't' => do skip; word ['r', 'u', 'e']; return .bool true
    | some 'f' => do skip; word ['a', 'l', 's', 'e']; return .bool false
    | some '"' => return .text (← string)
    | some '[' =>
      enter levels fun inner =>
        closedBy endList do return .list (← items fuel inner true)
    | some '\x7b' =>
      enter levels fun inner =>
        closedBy endObject do return .object (← members fuel inner true)
    | some x =>
      if x = '-' || x.isDigit then return .number (← number)
      else failNext (.malformed .expectedValue)

/-- The elements of a list. -/
def items : Nat → Nat → Bool → Scan (List Json)
  | 0, _, _ => failNext (.malformed .endInList)
  | fuel + 1, levels, first => do
    if ← moreItems first then
      let v ← value fuel levels
      return v :: (← items fuel levels false)
    else return []

/-- The members of an object, in the order of the text. -/
def members : Nat → Nat → Bool → Scan (List (String × Json))
  | 0, _, _ => failNext (.malformed .endInObject)
  | fuel + 1, levels, first => do
    if ← moreMembers first then
      let key ← string
      colon
      let v ← value fuel levels
      return (key, v) :: (← members fuel levels false)
    else return []

end

/-! ## §2. Passing over a value. -/

mutual

/-- Pass over a value. -/
def skipValue : Nat → Scan Unit
  | 0 => failNext (.malformed .endInValue)
  | fuel + 1 => do
    match ← peekToken with
    | none => failNext (.malformed .endInValue)
    | some 'n' => do skip; word ['u', 'l', 'l']
    | some 't' => do skip; word ['r', 'u', 'e']
    | some 'f' => do skip; word ['a', 'l', 's', 'e']
    | some '"' => skipString
    | some '[' => do
      skip
      match ← peekToken with
      | some ']' => skip
      | none => failNext (.malformed .endInList)
      | some _ => skipItems fuel
    | some '\x7b' => do
      skip
      match ← peekToken with
      | some '\x7d' => skip
      | none => failNext (.malformed .endInObject)
      | some _ => skipMembers fuel
    | some x =>
      if x = '-' || x.isDigit then skipNumber
      else failNext (.malformed .expectedValue)

/-- Pass over elements and the closing bracket. -/
def skipItems : Nat → Scan Unit
  | 0 => failNext (.malformed .endInList)
  | fuel + 1 => do
    skipValue fuel
    match ← peekToken with
    | some ']' => skip
    | some ',' => do skip; skipItems fuel
    | some _ => failNext (.malformed .expectedListEnd)
    | none => failNext (.malformed .endInList)

/-- Pass over members and the closing brace. -/
def skipMembers : Nat → Scan Unit
  | 0 => failNext (.malformed .endInObject)
  | fuel + 1 => do
    match ← peekToken with
    | some '"' => skipString
    | some _ => failNext (.malformed .keyNotText)
    | none => failNext (.malformed .endInObject)
    colon
    skipValue fuel
    match ← peekToken with
    | some '\x7d' => skip
    | some ',' => do skip; skipMembers fuel
    | some _ => failNext (.malformed .expectedObjectEnd)
    | none => failNext (.malformed .endInObject)

end

/-! ## §3. Whole texts. -/

/-- Recursion enough for what is left of the text. -/
def fuelFor (c : Cursor) : Nat :=
  3 * c.rest.length + 8

/-- The end of the text. -/
def endOfText : Scan Unit := do
  match ← peekToken with
  | some _ => failNext (.malformed .trailingCharacters)
  | none => return ()

/-- What a scan of a whole text answers. -/
def run {α : Type} (inside : Nat → Scan α) (s : String) : Except TextError α :=
  let c := Cursor.ofString s
  let whole : Scan α := do
    let a ← inside (fuelFor c)
    endOfText
    return a
  match whole c with
  | .ok (a, _) => .ok a
  | .error f => .error ⟨f.cause, f.place⟩

end Scan

/-- The value a text holds, members in the order of the text. -/
def Json.parseOrdered (s : String) : Except TextError Json :=
  Scan.run (fun fuel => Scan.value fuel Scan.levelLimit) s

/-- The value a text holds, without the order of its members. -/
def Json.parse (s : String) : Except TextError Json :=
  (Json.parseOrdered s).map Json.normalize

end LiteratureReview
