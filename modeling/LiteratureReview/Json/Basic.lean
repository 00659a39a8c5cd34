/-
  LiteratureReview.Json.Basic
  ───────────────────────────
  JSON values.

  A number is an integer of the sixty-four-bit ranges or a double.  An
  object is a list of members in the order they were written; `normalize`
  gives the form in which order is lost: keys ascending, and of members
  with one key the last.
-/
import LiteratureReview.Decimal.Notation

namespace LiteratureReview

open Decimal

/-- A JSON number: an integer between -2^63 and 2^64 - 1, or a double. -/
inductive Number where
  | int (value : Int)
  | float (value : Double)
  deriving DecidableEq, Repr, Inhabited

/-- A JSON value. -/
inductive Json where
  | null
  | bool (value : Bool)
  | number (value : Number)
  | text (value : String)
  | list (items : List Json)
  | object (members : List (String × Json))
  deriving Repr, Inhabited

namespace Json

/-! ## §1. Equality. -/

mutual

/-- Equality of values, members in order. -/
def decEq : (a b : Json) → Decidable (a = b)
  | .null, .null => isTrue rfl
  | .bool x, .bool y => if h : x = y then isTrue (h ▸ rfl) else isFalse fun e => h (by injection e)
  | .number x, .number y =>
    if h : x = y then isTrue (h ▸ rfl) else isFalse fun e => h (by injection e)
  | .text x, .text y => if h : x = y then isTrue (h ▸ rfl) else isFalse fun e => h (by injection e)
  | .list xs, .list ys =>
    match decEqItems xs ys with
    | isTrue h => isTrue (h ▸ rfl)
    | isFalse h => isFalse fun e => h (by injection e)
  | .object xs, .object ys =>
    match decEqMembers xs ys with
    | isTrue h => isTrue (h ▸ rfl)
    | isFalse h => isFalse fun e => h (by injection e)
  | .null, .bool _ | .null, .number _ | .null, .text _ | .null, .list _ | .null, .object _
  | .bool _, .null | .bool _, .number _ | .bool _, .text _ | .bool _, .list _ | .bool _, .object _
  | .number _, .null | .number _, .bool _ | .number _, .text _ | .number _, .list _
  | .number _, .object _ | .text _, .null | .text _, .bool _ | .text _, .number _
  | .text _, .list _ | .text _, .object _ | .list _, .null | .list _, .bool _
  | .list _, .number _ | .list _, .text _ | .list _, .object _ | .object _, .null
  | .object _, .bool _ | .object _, .number _ | .object _, .text _ | .object _, .list _ =>
    isFalse (by intro e; cases e)

/-- Equality of lists of values. -/
def decEqItems : (a b : List Json) → Decidable (a = b)
  | [], [] => isTrue rfl
  | [], _ :: _ => isFalse (by intro e; cases e)
  | _ :: _, [] => isFalse (by intro e; cases e)
  | x :: xs, y :: ys =>
    match decEq x y, decEqItems xs ys with
    | isTrue h, isTrue k => isTrue (by rw [h, k])
    | isFalse h, _ => isFalse (by intro e; injection e; contradiction)
    | _, isFalse k => isFalse (by intro e; injection e; contradiction)

/-- Equality of lists of members. -/
def decEqMembers : (a b : List (String × Json)) → Decidable (a = b)
  | [], [] => isTrue rfl
  | [], _ :: _ => isFalse (by intro e; cases e)
  | _ :: _, [] => isFalse (by intro e; cases e)
  | (k, x) :: xs, (l, y) :: ys =>
    if hk : k = l then
      match decEq x y, decEqMembers xs ys with
      | isTrue h, isTrue r => isTrue (by rw [hk, h, r])
      | isFalse h, _ => isFalse (by intro e; injection e with e₁; injection e₁; contradiction)
      | _, isFalse r => isFalse (by intro e; injection e; contradiction)
    else isFalse (by intro e; injection e with e₁; injection e₁; contradiction)

end

instance : DecidableEq Json := decEq

/-! ## §2. Access. -/

/-- The value under a key of an object. -/
def get? (v : Json) (key : String) : Option Json :=
  match v with
  | .object members => members.lookup key
  | _ => none

/-- The text, if the value is one. -/
def asText? : Json → Option String
  | .text s => some s
  | _ => none

/-- The elements, if the value is a list. -/
def asList? : Json → Option (List Json)
  | .list items => some items
  | _ => none

/-- The members, if the value is an object. -/
def asObject? : Json → Option (List (String × Json))
  | .object members => some members
  | _ => none

/-- A list of texts. -/
def texts (names : List String) : Json :=
  .list (names.map .text)

/-- A natural number. -/
def nat (n : Nat) : Json :=
  .number (.int n)

/-! ## §3. Depth. -/

mutual

/-- How many lists and objects lie around the innermost value. -/
def depth : Json → Nat
  | .list items => depthItems items + 1
  | .object members => depthMembers members + 1
  | .null | .bool _ | .number _ | .text _ => 0

/-- The greatest depth of an element. -/
def depthItems : List Json → Nat
  | [] => 0
  | v :: rest => max v.depth (depthItems rest)

/-- The greatest depth of a member's value. -/
def depthMembers : List (String × Json) → Nat
  | [] => 0
  | (_, v) :: rest => max v.depth (depthMembers rest)

end

/-! ## §4. The form without order. -/

/-- Set a key in a member list with ascending keys. -/
def insertMember (key : String) (value : Json) : List (String × Json) → List (String × Json)
  | [] => [(key, value)]
  | (k, v) :: rest =>
    if key < k then (key, value) :: (k, v) :: rest
    else if key = k then (key, value) :: rest
    else (k, v) :: insertMember key value rest

mutual

/-- Keys ascending and distinct throughout; of equal keys the last wins. -/
def normalize : Json → Json
  | .list items => .list (normalizeItems items)
  | .object members => .object (normalizeMembers members)
  | .null => .null
  | .bool b => .bool b
  | .number n => .number n
  | .text s => .text s

/-- Every element without order. -/
def normalizeItems : List Json → List Json
  | [] => []
  | v :: rest => v.normalize :: normalizeItems rest

/-- Members by ascending key. -/
def normalizeMembers : List (String × Json) → List (String × Json)
  | [] => []
  | (k, v) :: rest =>
    let later := normalizeMembers rest
    if later.any (·.1 == k) then later else insertMember k v.normalize later

end

/-- An object without order from members in any order. -/
def ofMembers (members : List (String × Json)) : Json :=
  .object (members.foldl (fun acc m => insertMember m.1 m.2 acc) [])

/-- Set a key of a normalized object; other values stay as they are. -/
def set (v : Json) (key : String) (value : Json) : Json :=
  match v with
  | .object members => .object (insertMember key value members)
  | other => other

end Json

end LiteratureReview
