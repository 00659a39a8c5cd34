/-
  LiteratureReview.Json.Shape
  ───────────────────────────
  Texts that are to hold a value of a given form.

  A text is checked against a `Shape` while it is read, so the first thing
  wrong with it is reported, be it a letter out of place or a number where a
  name should stand.  Members no record asks for are passed over.  The value
  that comes out is then decoded like any other (`readText`).

  A tagged union is read as a whole before its contents are looked at; faults
  of the contents therefore have no place of their own and take that of the
  list or object around the union.
-/
import LiteratureReview.Json.Decoding
import LiteratureReview.Json.Reader

namespace LiteratureReview

/-- The forms a text can be checked against while it is read. -/
inductive Shape where
  /-- Any value. -/
  | any
  /-- A text with a check that is part of reading the text itself. -/
  | text (expected : String) (check : String → Except DecodeError Unit)
  /-- A text with a check that is made once it has been read. -/
  | checked (check : String → Except DecodeError Unit)
  | bool
  | number (expected : String) (check : Number → Except DecodeError Unit)
  | choice (names : List String)
  | list (item : Shape)
  | nullable (content : Shape)
  /-- A record; the flag of a field says that the list form may end before it. -/
  | record (type : RecordType) (fields : List (String × Bool × Shape))
  | union (type : UnionType) (check : Json → Except DecodeError Unit)

namespace Shape

/-- A text without conditions. -/
def string : Shape := .text "a string" fun _ => .ok ()

/-- An integer in a range. -/
def integer (low high : Int) (expected : String) : Shape :=
  .number expected fun n => (Decoder.integerOf low high expected n).map fun _ => ()

/-- An unsigned integer of thirty-two bits. -/
def u32 : Shape := integer 0 (Decimal.twoTo 32 - 1 : Int) "u32"

/-- A natural number of sixty-four bits, under the name it is asked for by. -/
def natural (expected : String) : Shape := integer 0 (Decimal.twoTo 64 - 1 : Int) expected

/-- A signed integer of sixty-four bits. -/
def i64 : Shape := integer (-(Decimal.twoTo 63 : Int)) (Decimal.twoTo 63 - 1 : Int) "i64"

/-- A number. -/
def double : Shape := .number "f64" fun _ => .ok ()

/-- The check a decoder makes. -/
def checkOf {α : Type} (d : Decoder α) (v : Json) : Except DecodeError Unit :=
  (d .free v).map fun _ => ()

/-- A text that a decoder has to accept, as a check made once it has been read. -/
def textOf {α : Type} (d : Decoder α) : Shape :=
  .checked fun s => checkOf d (.text s)

/-- A required field. -/
def required (name : String) (s : Shape) : String × Bool × Shape := (name, false, s)

/-- A field that may be null or left out, also at the end of the list form. -/
def optional (name : String) (s : Shape) : String × Bool × Shape := (name, true, .nullable s)

/-- A field with a value of its own for when it is left out. -/
def withDefault (name : String) (s : Shape) : String × Bool × Shape := (name, true, s)

/-- The form of a field may be null, so the field may be missing. -/
def acceptsNull : Shape → Bool
  | .nullable _ => true
  | _ => false

end Shape

namespace Scan

/-! ## §1. Values of the wrong form. -/

/-- Refuse the value that comes next; it is read far enough to be named. -/
def refuseNext {α : Type} (expected : String) : Scan α := do
  match ← peek with
  | some 'n' => do
    skip; word ['u', 'l', 'l']
    failHere (.wrongType .null expected)
  | some 't' => do
    skip; word ['r', 'u', 'e']
    failHere (.wrongType (.bool true) expected)
  | some 'f' => do
    skip; word ['a', 'l', 's', 'e']
    failHere (.wrongType (.bool false) expected)
  | some '"' => do
    let s ← string
    failHere (.wrongType (.text s) expected)
  | some '[' => failHere (.wrongType .list expected)
  | some '\x7b' => failHere (.wrongType .object expected)
  | some x =>
    if x = '-' || x.isDigit then do
      let n ← number
      failHere (.wrongType (.number n) expected)
    else failNext (.malformed .expectedValue)
  | none => failNext (.malformed .expectedValue)

/-- The first character of a value. -/
def valueToken : Scan Char := do
  match ← peekToken with
  | some x => return x
  | none => failNext (.malformed .endInValue)

/-! ## §2. Scalars. -/

/-- A text that the next value has to be. -/
def textValue (expected : String) : Scan String := do
  let x ← valueToken
  if x = '"' then string else refuseNext expected

/-- A truth value. -/
def boolValue : Scan Json := do
  match ← valueToken with
  | 't' => do skip; word ['r', 'u', 'e']; return .bool true
  | 'f' => do skip; word ['a', 'l', 's', 'e']; return .bool false
  | _ => refuseNext "a boolean"

/-- A number that has to pass a check. -/
def numberValue (expected : String) (check : Number → Except DecodeError Unit) : Scan Json := do
  let x ← valueToken
  if x = '-' || x.isDigit then
    let n ← number
    checkHere (check n)
    return .number n
  else refuseNext expected

/-- The name of one of some variants. -/
def variantName (names : List String) : Scan String := do
  let s ← textValue "variant identifier"
  if names.contains s then return s
  else failHere (.unknownVariant s names)

/-- A value of a plain enumeration. -/
def choiceValue (names : List String) (levels : Nat) : Scan Json := do
  match ← valueToken with
  | '"' => return .text (← variantName names)
  | '\x7b' =>
    enter levels fun _ => do
      let name ← variantName names
      colon
      match ← peekToken with
      | none => failNext (.malformed .endInValue)
      | some 'n' => do skip; word ['u', 'l', 'l']
      | some _ => refuseNext "unit"
      match ← peekToken with
      | some '\x7d' => skip
      | some _ => failHere (.malformed .expectedValue)
      | none => failHere (.malformed .endInObject)
      return .text name
  | _ => failNext (.malformed .expectedValue)

/-! ## §3. Tagged unions. -/

/-- The members of a tagged union, its tag checked when it is met. -/
def unionMembers (u : UnionType) (levels : Nat) : Nat → Bool → Bool → Scan (List (String × Json))
  | 0, _, _ => failNext (.malformed .endInObject)
  | fuel + 1, first, tagged => do
    if ← moreMembers first then
      let key ← string
      if key = u.tag then
        if tagged then failOpen (.duplicateField u.tag)
        colon
        let name ← variantName u.variants
        return (key, .text name) :: (← unionMembers u levels fuel false true)
      else
        colon
        let v ← value fuel levels
        return (key, v) :: (← unionMembers u levels fuel false tagged)
    else if tagged then return []
    else failOpen (.missingField u.tag)

/-- The elements of a tagged union in its list form. -/
def unionItems (u : UnionType) (fuel levels : Nat) : Scan (List Json) := do
  if ← moreItems true then
    let name ← variantName u.variants
    return .text name :: (← items fuel levels false)
  else failOpen (.missingField u.tag)

/-- A tagged union, its contents unchecked. -/
def unionValue (u : UnionType) (fuel levels : Nat) : Scan Json := do
  match ← valueToken with
  | '[' =>
    enter levels fun inner =>
      closedBy endList do return .list (← unionItems u fuel inner)
  | '\x7b' =>
    enter levels fun inner =>
      closedBy endObject do return .object (← unionMembers u inner fuel true false)
  | _ => do
    let v ← value fuel levels
    failHere (.wrongType v.found u.expected)

/-! ## §4. Lists, records and the rest. -/

mutual

/-- A value of a shape.  Of a record only the members it declares are kept. -/
def shaped : Nat → Nat → Shape → Scan Json
  | 0, _, _ => failNext (.malformed .endInValue)
  | fuel + 1, levels, shape => do
    match shape with
    | .any => value fuel levels
    | .text expected check =>
      let s ← textValue expected
      checkHere (check s)
      return .text s
    | .checked check =>
      let s ← textValue "a string"
      checkOpen (check s)
      return .text s
    | .bool => boolValue
    | .number expected check => numberValue expected check
    | .choice names => choiceValue names levels
    | .list item =>
      let x ← valueToken
      if x = '[' then
        enter levels fun inner =>
          closedBy endList do return .list (← shapedItems fuel inner item true)
      else refuseNext "a sequence"
    | .nullable content =>
      match ← peekToken with
      | some 'n' => do skip; word ['u', 'l', 'l']; return .null
      | _ => shaped fuel levels content
    | .record type fields =>
      match ← valueToken with
      | '[' =>
        enter levels fun inner =>
          closedBy endList do return .list (← shapedFields fuel inner type fields 0)
      | '\x7b' =>
        enter levels fun inner =>
          closedBy endObject do
            return .object (← shapedMembers fuel inner fields true [])
      | _ => refuseNext type.expected
    | .union type check =>
      let v ← unionValue type fuel levels
      checkOpen (check v)
      return v

/-- Elements of a shape. -/
def shapedItems : Nat → Nat → Shape → Bool → Scan (List Json)
  | 0, _, _, _ => failNext (.malformed .endInList)
  | fuel + 1, levels, item, first => do
    if ← moreItems first then
      let v ← shaped fuel levels item
      return v :: (← shapedItems fuel levels item false)
    else return []

/-- The fields of a record in its list form. -/
def shapedFields : Nat → Nat → RecordType → List (String × Bool × Shape) → Nat → Scan (List Json)
  | 0, _, _, _, _ => failNext (.malformed .endInList)
  | _, _, _, [], _ => return []
  | fuel + 1, levels, type, (_, mayEnd, shape) :: rest, i => do
    if ← moreItems (i == 0) then
      let v ← shaped fuel levels shape
      return v :: (← shapedFields fuel levels type rest (i + 1))
    else if mayEnd then shapedFields fuel levels type rest (i + 1)
    else failOpen (.wrongLength i type.expectedLength)

/-- The members of a record that it declares, `seen` being the keys met so far. -/
def shapedMembers :
    Nat → Nat → List (String × Bool × Shape) → Bool → List String → Scan (List (String × Json))
  | 0, _, _, _, _ => failNext (.malformed .endInObject)
  | fuel + 1, levels, fields, first, seen => do
    if ← moreMembers first then
      let key ← string
      match fields.lookup key with
      | some (_, shape) =>
        if seen.contains key then failOpen (.duplicateField key)
        colon
        let v ← shaped fuel levels shape
        return (key, v) :: (← shapedMembers fuel levels fields false (key :: seen))
      | none =>
        colon
        skipValue fuel
        shapedMembers fuel levels fields false seen
    else
      match fields.find? fun f => !(seen.contains f.1 || f.2.1 || f.2.2.acceptsNull) with
      | some (name, _) => failOpen (.missingField name)
      | none => return []

end

end Scan

/-- Read a text of a shape and decode what it holds. -/
def readText {α : Type} (shape : Shape) (d : Decoder α) (s : String) : Except TextError α := do
  let v ← Scan.run (fun fuel => Scan.shaped fuel Scan.levelLimit shape) s
  (d .free v).mapError fun cause => ⟨cause, none⟩

end LiteratureReview
