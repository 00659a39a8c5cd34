/-
  LiteratureReview.Schema.Check
  ─────────────────────────────
  Checking values against schemas: every violation, in the order of the
  schema's assertions.

  `Schema.violations` follows the schema and leaves references to the
  function it is given; `SchemaDocument.lookup` answers those, each time
  with one reference less to go.  A value of depth `d` meets at most all
  definitions once on each of its levels, which bounds the references.
-/
import LiteratureReview.Json.Comparison
import LiteratureReview.Schema.Violation

namespace LiteratureReview

/-! ## §1. Assertions about one value. -/

/-- The value has the type.  A number without a fractional part is an
integer, however it is written. -/
def ValueType.holds : ValueType → Json → Bool
  | .array, .list _ => true
  | .boolean, .bool _ => true
  | .integer, .number n => n.isInteger
  | .null, .null => true
  | .number, .number _ => true
  | .object, .object _ => true
  | .string, .text _ => true
  | _, _ => false

/-- A number keeps within the limit; other values do. -/
def Limit.holds : Limit → Json → Bool
  | .atLeast n, .number m => !m.less n
  | .atMost n, .number m => !n.less m
  | .above n, .number m => n.less m
  | .below n, .number m => m.less n
  | _, _ => true

/-- A text or list keeps within the limit; other values do. -/
def Extent.holds : Extent → Json → Bool
  | .lengthAtLeast n, .text s => n ≤ s.length
  | .lengthAtMost n, .text s => s.length ≤ n
  | .countAtLeast n, .list items => n ≤ items.length
  | .countAtMost n, .list items => items.length ≤ n
  | _, _ => true

/-- A text matches; other values do. -/
def Pattern.holds (p : Pattern) : Json → Bool
  | .text s => p.accepts s
  | _ => true

/-- The listed keys that an object lacks; other values lack none. -/
def missingKeys (keys : List String) : Json → List String
  | .object members => keys.filter fun k => (members.lookup k).isNone
  | _ => []

/-- One violation when something does not hold. -/
def demand (holds : Bool) (place : Pointer) (v : Json) (breach : Breach) : List Violation :=
  if holds then [] else [⟨place, v, breach⟩]

/-- The elements of a list with their places; other values have none. -/
def elementsOf (place : Pointer) : Json → List (Pointer × Json)
  | .list items => items.mapIdx fun i v => (place ++ [.element i], v)
  | _ => []

/-! ## §2. Schemas. -/

/-- How a reference is checked. -/
abbrev Resolver := String → Pointer → Json → List Violation

namespace Schema

mutual

/-- The violations of a schema by the value at a place. -/
def violations (resolve : Resolver) : Schema → Pointer → Json → List Violation
  | .always, _, _ => []
  | .never, p, v => [⟨p, v, .never⟩]
  | .ref name, p, v => resolve name p v
  | .all parts, p, v => violationsAll resolve parts p v
  | .any branches, p, v => demand (0 < countHolding resolve branches p v) p v .noneOfAny
  | .one branches, p, v =>
    match countHolding resolve branches p v with
    | 0 => [⟨p, v, .noneOfOne⟩]
    | 1 => []
    | _ + 2 => [⟨p, v, .severalOfOne⟩]
  | .negate part, p, v => demand (!(violations resolve part p v).isEmpty) p v .negated
  | .conditional test consequence alternative, p, v =>
    if (violations resolve test p v).isEmpty then violations resolve consequence p v
    else violations resolve alternative p v
  | .type names, p, v => demand (names.any fun t => t.holds v) p v (.type names)
  | .constant value, p, v => demand (v.same value) p v (.constant value)
  | .enumeration values, p, v => demand (values.any v.same) p v (.enumeration values)
  | .limit bound, p, v => demand (bound.holds v) p v (.limit bound)
  | .extent bound, p, v => demand (bound.holds v) p v (.extent bound)
  | .pattern letters, p, v => demand (letters.holds v) p v (.pattern letters.source)
  | .required keys, p, v => (missingKeys keys v).map fun k => ⟨p, v, .missing k⟩
  | .properties schemas, p, v => violationsOfMembers resolve schemas p v
  | .elements schema, p, v => (elementsOf p v).flatMap fun e => violations resolve schema e.1 e.2

/-- The violations of schemas that all have to hold. -/
def violationsAll (resolve : Resolver) : List Schema → Pointer → Json → List Violation
  | [], _, _ => []
  | s :: rest, p, v => violations resolve s p v ++ violationsAll resolve rest p v

/-- How many of the schemas hold. -/
def countHolding (resolve : Resolver) : List Schema → Pointer → Json → Nat
  | [], _, _ => 0
  | s :: rest, p, v =>
    (if (violations resolve s p v).isEmpty then 1 else 0) + countHolding resolve rest p v

/-- The violations by the members that have a schema. -/
def violationsOfMembers (resolve : Resolver) :
    List (String × Schema) → Pointer → Json → List Violation
  | [], _, _ => []
  | (key, s) :: rest, p, v =>
    (match v.get? key with
      | some w => violations resolve s (p ++ [.member key]) w
      | none => [])
    ++ violationsOfMembers resolve rest p v

end

end Schema

/-! ## §3. Documents. -/

namespace SchemaDocument

/-- Check a reference, following at most so many. -/
def lookup (d : SchemaDocument) : Nat → Resolver
  | 0, _, _, _ => []
  | n + 1, name, p, v =>
    match d.definitions.lookup name with
    | some s => s.violations (d.lookup n) p v
    | none => []

/-- How many references a value of some depth can meet one inside the other. -/
def references (d : SchemaDocument) (v : Json) : Nat :=
  (v.depth + 1) * (d.definitions.length + 1)

/-- Every violation by a value. -/
def violations (d : SchemaDocument) (v : Json) : List Violation :=
  d.root.violations (d.lookup (d.references v)) [] v

end SchemaDocument

end LiteratureReview
