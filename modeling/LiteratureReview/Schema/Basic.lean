/-
  LiteratureReview.Schema.Basic
  ─────────────────────────────
  JSON Schemas, and reading them from their JSON form.

  A schema object is the list of its assertions in ascending order of
  keywords; `if`, `then` and `else` are one assertion, at the place of `if`.
  Annotations assert nothing.
-/
import LiteratureReview.Json.Basic
import LiteratureReview.Schema.Pattern

namespace LiteratureReview

/-- The types a value can have. -/
inductive ValueType where
  | array
  | boolean
  | integer
  | null
  | number
  | object
  | string
  deriving DecidableEq, Repr

namespace ValueType

/-- The type names, ascending. -/
def table : List (String × ValueType) :=
  [("array", .array), ("boolean", .boolean), ("integer", .integer), ("null", .null),
   ("number", .number), ("object", .object), ("string", .string)]

/-- The name of a type. -/
def name : ValueType → String
  | .array => "array"
  | .boolean => "boolean"
  | .integer => "integer"
  | .null => "null"
  | .number => "number"
  | .object => "object"
  | .string => "string"

end ValueType

/-- A limit on a number. -/
inductive Limit where
  | atLeast (n : Number)
  | atMost (n : Number)
  | above (n : Number)
  | below (n : Number)
  deriving DecidableEq, Repr

/-- A limit on a length or a number of elements. -/
inductive Extent where
  | lengthAtLeast (n : Nat)
  | lengthAtMost (n : Nat)
  | countAtLeast (n : Nat)
  | countAtMost (n : Nat)
  deriving DecidableEq, Repr

/-- A schema. -/
inductive Schema where
  | always
  | never
  | ref (name : String)
  | all (parts : List Schema)
  | any (branches : List Schema)
  | one (branches : List Schema)
  | negate (part : Schema)
  | conditional (test consequence alternative : Schema)
  | type (names : List ValueType)
  | constant (value : Json)
  | enumeration (values : List Json)
  | limit (bound : Limit)
  | extent (bound : Extent)
  | pattern (letters : Pattern)
  | required (keys : List String)
  | properties (schemas : List (String × Schema))
  | elements (schema : Schema)
  deriving Repr, Inhabited

/-- Why a JSON value is no schema. -/
inductive SchemaFault where
  | notASchema
  | keyword (name : String)
  deriving DecidableEq, Repr

/-- The wording of the fault. -/
def SchemaFault.message : SchemaFault → String
  | .notASchema => "a schema is an object or a boolean"
  | .keyword name => "keyword `" ++ name ++ "` has a value that is not read"

namespace Schema

/-! ## §1. Keywords without schemas of their own. -/

/-- The texts of a list of texts. -/
def textsOf : Json → Option (List String)
  | .list items => items.mapM Json.asText?
  | _ => none

/-- The types of the `type` keyword, ascending. -/
def typesOf : Json → Option (List ValueType)
  | .text name => (ValueType.table.lookup name).map fun t => [t]
  | .list items => do
    let names ← items.mapM Json.asText?
    if names.all fun n => (ValueType.table.lookup n).isSome then
      return ValueType.table.filterMap fun e => if names.contains e.1 then some e.2 else none
    else none
  | _ => none

/-- The number of a numeric keyword. -/
def numberOf : Json → Option Number
  | .number n => some n
  | _ => none

/-- The number of a keyword that counts. -/
def countOf : Json → Option Nat
  | .number (.int (.ofNat n)) => some n
  | _ => none

/-- The name behind a reference to a definition. -/
def definitionOf : Json → Option String
  | .text s => if s.startsWith "#/$defs/" then some (s.drop 8).toString else none
  | _ => none

/-- What a keyword asserts by itself; nothing for an annotation. -/
def assertion (key : String) (v : Json) : Option (Option Schema) :=
  match key with
  | "$ref" => (definitionOf v).map fun name => some (.ref name)
  | "const" => some (some (.constant v))
  | "enum" => v.asList?.map fun vs => some (.enumeration vs)
  | "exclusiveMaximum" => (numberOf v).map fun n => some (.limit (.below n))
  | "exclusiveMinimum" => (numberOf v).map fun n => some (.limit (.above n))
  | "maxItems" => (countOf v).map fun n => some (.extent (.countAtMost n))
  | "maxLength" => (countOf v).map fun n => some (.extent (.lengthAtMost n))
  | "maximum" => (numberOf v).map fun n => some (.limit (.atMost n))
  | "minItems" => (countOf v).map fun n => some (.extent (.countAtLeast n))
  | "minLength" => (countOf v).map fun n => some (.extent (.lengthAtLeast n))
  | "minimum" => (numberOf v).map fun n => some (.limit (.atLeast n))
  | "pattern" => (v.asText?.bind Pattern.ofText).map fun p => some (.pattern p)
  | "required" => (textsOf v).map fun keys => some (.required keys)
  | "type" => (typesOf v).map fun ts => some (.type ts)
  | _ => some none

/-! ## §2. Reading. -/

/-- A keyword that has been read. -/
inductive Part where
  | assertion (schema : Schema)
  | test (schema : Schema)
  | consequence (schema : Schema)
  | alternative (schema : Schema)

/-- The last schema that stands in a role, or the one without demands. -/
def roleOf (parts : List Part) (role : Part → Option Schema) : Schema :=
  (parts.reverse.findSome? role).getD .always

/-- Put the keywords of an object together. -/
def assemble (parts : List Part) : List Schema :=
  let consequence := roleOf parts fun
    | .consequence s => some s
    | _ => none
  let alternative := roleOf parts fun
    | .alternative s => some s
    | _ => none
  parts.filterMap fun
    | .assertion s => some s
    | .test s => some (.conditional s consequence alternative)
    | .consequence _ | .alternative _ => none

mutual

/-- Read a schema. -/
def read : Json → Except SchemaFault Schema
  | .bool true => .ok .always
  | .bool false => .ok .never
  | .object members => do return .all (assemble (← readKeywords members))
  | .null | .number _ | .text _ | .list _ => .error .notASchema

/-- Read the keywords of an object. -/
def readKeywords : List (String × Json) → Except SchemaFault (List Part)
  | [] => .ok []
  | (key, v) :: rest => do
    let here : List Part ← match key with
      | "allOf" => (readList key v).map fun ss => [.assertion (.all ss)]
      | "anyOf" => (readList key v).map fun ss => [.assertion (.any ss)]
      | "oneOf" => (readList key v).map fun ss => [.assertion (.one ss)]
      | "not" => (read v).map fun s => [.assertion (.negate s)]
      | "items" => (read v).map fun s => [.assertion (.elements s)]
      | "properties" => (readTable key v).map fun ss => [.assertion (.properties ss)]
      | "if" => (read v).map fun s => [.test s]
      | "then" => (read v).map fun s => [.consequence s]
      | "else" => (read v).map fun s => [.alternative s]
      | _ =>
        match assertion key v with
        | some (some s) => .ok [.assertion s]
        | some none => .ok []
        | none => .error (.keyword key)
    return here ++ (← readKeywords rest)

/-- Read the list of schemas under a keyword. -/
def readList (key : String) : Json → Except SchemaFault (List Schema)
  | .list items => readItems items
  | .null | .bool _ | .number _ | .text _ | .object _ => .error (.keyword key)

/-- Read schemas. -/
def readItems : List Json → Except SchemaFault (List Schema)
  | [] => .ok []
  | v :: rest => do return (← read v) :: (← readItems rest)

/-- Read the named schemas under a keyword. -/
def readTable (key : String) : Json → Except SchemaFault (List (String × Schema))
  | .object members => readMembers members
  | .null | .bool _ | .number _ | .text _ | .list _ => .error (.keyword key)

/-- Read named schemas. -/
def readMembers : List (String × Json) → Except SchemaFault (List (String × Schema))
  | [] => .ok []
  | (name, v) :: rest => do return (name, ← read v) :: (← readMembers rest)

end

end Schema

/-- A schema and the definitions its references name. -/
structure SchemaDocument where
  root : Schema
  definitions : List (String × Schema)
  deriving Repr, Inhabited

/-- Read a schema with the definitions under `$defs`. -/
def SchemaDocument.read (v : Json) : Except SchemaFault SchemaDocument := do
  let root ← Schema.read v
  let definitions ← match v.get? "$defs" with
    | some defs => Schema.readTable "$defs" defs
    | none => pure []
  return ⟨root, definitions⟩

end LiteratureReview
