/-
  LiteratureReview.Schema.Forms
  ─────────────────────────────
  The JSON Schemas of scalars, lists, records, enumerations and tagged
  unions, from which the published schemas are put together.
-/
import LiteratureReview.Json.Basic

namespace LiteratureReview.Forms

open Json

/-! ## §1. Scalars. -/

/-- A schema that names a type. -/
def typed (name : String) : Json := ofMembers [("type", .text name)]

/-- A schema that names a type and how it is stored. -/
def formatted (type format : String) : Json :=
  ofMembers [("format", .text format), ("type", .text type)]

/-- A text. -/
def text : Json := typed "string"

/-- A truth value. -/
def bool : Json := typed "boolean"

/-- A point in time. -/
def dateTime : Json := formatted "string" "date-time"

/-- A double. -/
def double : Json := formatted "number" "double"

/-- A signed integer of sixty-four bits. -/
def i64 : Json := formatted "integer" "int64"

/-- An integer from zero on. -/
def unsigned (format : String) : Json := (formatted "integer" format).set "minimum" (nat 0)

/-- An unsigned integer of thirty-two bits. -/
def u32 : Json := unsigned "uint32"

/-- An unsigned integer of sixty-four bits. -/
def u64 : Json := unsigned "uint64"

/-- A position in a list. -/
def index : Json := unsigned "uint"

/-- A name usable as a key. -/
def identifier : Json := text.set "pattern" (.text "^[A-Za-z_][A-Za-z0-9_]*$")

/-- A text with at least one character. -/
def nonEmptyText : Json := text.set "minLength" (nat 1)

/-- Any value. -/
def anything : Json := .bool true

/-! ## §2. Modifications. -/

/-- A schema with a description. -/
def described (s : Json) (words : String) : Json := s.set "description" (.text words)

/-- A reference to a definition. -/
def ref (name : String) : Json := ofMembers [("$ref", .text ("#/$defs/" ++ name))]

/-- A list. -/
def list (element : Json) : Json := ofMembers [("items", element), ("type", .text "array")]

/-- A list with at least so many elements. -/
def listOfAtLeast (n : Nat) (element : Json) : Json := (list element).set "minItems" (nat n)

/-- The schema, or null. -/
def orNull (s : Json) : Json :=
  match s.get? "type" with
  | some type => s.set "type" (.list [type, .text "null"])
  | none =>
    match s with
    | .object _ => ofMembers [("anyOf", .list [s, typed "null"])]
    | other => other

/-- An integer from a least one on. -/
def atLeast (s : Json) (low : Int) : Json := s.set "minimum" (.number (.int low))

/-- An integer between two others. -/
def between (s : Json) (low high : Int) : Json :=
  (atLeast s low).set "maximum" (.number (.int high))

/-! ## §3. Records and unions. -/

/-- A field of a record. -/
structure Field where
  name : String
  schema : Json
  demanded : Bool

/-- A field that has to be given. -/
def field (name : String) (schema : Json) : Field := ⟨name, schema, true⟩

/-- A field that may be null or left out. -/
def option (name : String) (schema : Json) : Field := ⟨name, orNull schema, false⟩

/-- A record. -/
def record (fields : List Field) : Json :=
  let demanded := (fields.filter (·.demanded)).map (·.name)
  let s := ofMembers
    [("properties", ofMembers (fields.map fun f => (f.name, f.schema))), ("type", .text "object")]
  if demanded.isEmpty then s else s.set "required" (texts demanded)

/-- A name out of some. -/
def enumeration (names : List String) : Json :=
  ofMembers [("enum", texts names), ("type", .text "string")]

/-- A name out of some, each with a description. -/
def describedNames (names : List (String × String)) : Json :=
  ofMembers [("oneOf", .list (names.map fun n =>
    ofMembers [("const", .text n.1), ("description", .text n.2), ("type", .text "string")]))]

/-- One branch of a tagged union: the tag fixed beside the contents. -/
def variant (tag name content : String) : Json :=
  ofMembers
    [("$ref", .text ("#/$defs/" ++ content)),
     ("properties", ofMembers
       [(tag, ofMembers [("const", .text name), ("type", .text "string")])]),
     ("required", texts [tag]),
     ("type", .text "object")]

/-- A union of records told apart by a tag. -/
def union (branches : List Json) : Json := ofMembers [("oneOf", .list branches)]

/-! ## §4. Documents. -/

/-- A schema of its own, with the definitions it refers to. -/
def document (title : String) (schema : Json) (definitions : List (String × Json)) : Json :=
  let s := (schema.set "$schema" (.text "https://json-schema.org/draft/2020-12/schema")).set
    "title" (.text title)
  if definitions.isEmpty then s else s.set "$defs" (ofMembers definitions)

end LiteratureReview.Forms
