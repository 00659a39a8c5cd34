/-
  LiteratureReview.Extraction.FieldConfig
  ───────────────────────────────────────
  The settings of an extraction field.  Only those that its kind has are
  given; whether it is mandatory always is.
-/
import LiteratureReview.Project.Codes

namespace LiteratureReview

open Json

/-- The settings of an extraction field. -/
structure FieldConfig where
  values : Option (List String) := none
  dynamicSubtype : Option String := none
  initialValues : Option (List String) := none
  referenceName : Option String := none
  dependsOn : Option String := none
  pattern : Option String := none
  maxChar : Option UInt32 := none
  initialValue : Option Json := none
  numberOfValues : Option Int64 := none
  mandatory : Bool := false
  /-- The name of the category directly above. -/
  parent : Option String := none
  deriving DecidableEq

namespace FieldConfig

def type : RecordType := ⟨"FieldConfig",
  ["values", "dynamic_subtype", "initial_values", "reference_name", "depends_on", "pattern",
   "max_char", "initial_value", "numberOfValues", "mandatory", "parent"]⟩

def shape : Shape := .record type
  [Shape.optional "values" (.list .string), Shape.optional "dynamic_subtype" .string,
   Shape.optional "initial_values" (.list .string), Shape.optional "reference_name" .string,
   Shape.optional "depends_on" .string, Shape.optional "pattern" .string,
   Shape.optional "max_char" .u32, Shape.optional "initial_value" .any,
   Shape.optional "numberOfValues" .i64, Shape.required "mandatory" .bool,
   Shape.optional "parent" .string]

def decode : Decoder FieldConfig := type.decode fun f =>
  FieldConfig.mk <$> f.optional "values" (Decoder.list Decoder.text)
    <*> f.optional "dynamic_subtype" Decoder.text
    <*> f.optional "initial_values" (Decoder.list Decoder.text)
    <*> f.optional "reference_name" Decoder.text
    <*> f.optional "depends_on" Decoder.text
    <*> f.optional "pattern" Decoder.text
    <*> f.optional "max_char" Decoder.u32
    <*> f.optional "initial_value" Decoder.any
    <*> ((·.map Int64.ofInt) <$> f.optional "numberOfValues" Decoder.i64)
    <*> f.required "mandatory" Decoder.bool
    <*> f.optional "parent" Decoder.text

def encode (c : FieldConfig) : Json :=
  .object (memberIf "values" texts c.values
    ++ memberIf "dynamic_subtype" .text c.dynamicSubtype
    ++ memberIf "initial_values" texts c.initialValues
    ++ memberIf "reference_name" .text c.referenceName
    ++ memberIf "depends_on" .text c.dependsOn
    ++ memberIf "pattern" .text c.pattern
    ++ memberIf "max_char" u32 c.maxChar
    ++ memberIf "initial_value" id c.initialValue
    ++ memberIf "numberOfValues" i64 c.numberOfValues
    ++ member "mandatory" (.bool c.mandatory)
    ++ memberIf "parent" .text c.parent)

end FieldConfig

end LiteratureReview
