/-
  LiteratureReview.Extraction.Flatten
  ───────────────────────────────────
  Category trees as lists of fields.

  A forest is written out in pre-order.  A field knows its place in the
  list, and the place and name of the category directly above it, so the
  forest can be told from the list.
-/
import LiteratureReview.Extraction.FieldConfig

namespace LiteratureReview

open Json

/-- A category as one entry of the list. -/
structure FieldDescriptor where
  name : String
  label : String
  kind : FieldKind
  isRequired : Bool
  /-- Its place in the list. -/
  order : Nat
  /-- The place of the category directly above, none for roots. -/
  parentIndex : Option Nat
  config : FieldConfig
  deriving DecidableEq

namespace FieldDescriptor

def type : RecordType := ⟨"FieldDescriptor",
  ["name", "label", "field_type", "is_required", "order", "parent_index", "config"]⟩

def shape : Shape := .record type
  [Shape.required "name" .string, Shape.required "label" .string,
   Shape.required "field_type" (.choiceOf FieldKind.table),
   Shape.required "is_required" .bool, Shape.required "order" (.natural "usize"),
   Shape.required "parent_index" (.nullable (.natural "usize")),
   Shape.required "config" FieldConfig.shape]

def decode : Decoder FieldDescriptor := type.decode fun f =>
  FieldDescriptor.mk <$> f.required "name" Decoder.text
    <*> f.required "label" Decoder.text
    <*> f.required "field_type" (Decoder.choice FieldKind.table)
    <*> f.required "is_required" Decoder.bool
    <*> f.required "order" (Decoder.natural "usize")
    <*> f.nullable "parent_index" (Decoder.natural "usize")
    <*> f.required "config" FieldConfig.decode

def encode (d : FieldDescriptor) : Json :=
  .object (member "name" (.text d.name) ++ member "label" (.text d.label)
    ++ member "field_type" (.text d.kind.name) ++ member "is_required" (.bool d.isRequired)
    ++ member "order" (nat d.order) ++ member "parent_index" (orNull nat d.parentIndex)
    ++ member "config" d.config.encode)

end FieldDescriptor

/-! ## §1. One category. -/

/-- The names of some entries. -/
def entryNames (entries : List NamedEntry) : List String :=
  entries.map fun e => e.name.text

/-- The settings of a category under a parent. -/
def FieldConfig.ofCategory (c : Category) (parent : Option String) : FieldConfig :=
  let common : FieldConfig :=
    { numberOfValues := c.head.numberOfValues, mandatory := c.head.mandatory, parent := parent }
  match c.kind with
  | .simple _ maxChar pattern initialValue =>
    { common with pattern := pattern, maxChar := maxChar, initialValue := initialValue }
  | .list values => { common with values := some (entryNames values) }
  | .independent referenceName initialValues =>
    { common with
      dynamicSubtype := some "Independent"
      initialValues := some (entryNames initialValues)
      referenceName := referenceName }
  | .dependent dependsOn =>
    { common with dynamicSubtype := some "Dependent", dependsOn := some dependsOn.text }

/-- The entry of a category at a place of the list. -/
def describe (c : Category) (order : Nat) (parentIndex : Option Nat) (parent : Option String) :
    FieldDescriptor :=
  { name := c.name.text
    label := c.label
    kind := FieldKind.ofCategory c
    isRequired := c.head.mandatory
    order := order
    parentIndex := parentIndex
    config := .ofCategory c parent }

/-! ## §2. Forests. -/

mutual

/-- The entries of a tree whose root gets the place `start`. -/
def flattenTree (start : Nat) (parentIndex : Option Nat) (parent : Option String) :
    Category → List FieldDescriptor
  | .node h k (some children) =>
    describe (.node h k (some children)) start parentIndex parent
      :: flattenForest (start + 1) (some start) (some h.name.text) children
  | .node h k none => [describe (.node h k none) start parentIndex parent]

/-- The entries of a forest whose first root gets the place `start`. -/
def flattenForest (start : Nat) (parentIndex : Option Nat) (parent : Option String) :
    List Category → List FieldDescriptor
  | [] => []
  | c :: rest =>
    flattenTree start parentIndex parent c
      ++ flattenForest (start + c.nodeCount) parentIndex parent rest

end

/-- The entries of a forest that hangs under a category which is not part of the
list. -/
def flattenUnder (categories : List Category) (parent : Option String) : List FieldDescriptor :=
  flattenForest 0 none parent categories

/-- The entries of a forest. -/
def flatten (categories : List Category) : List FieldDescriptor :=
  flattenUnder categories none

end LiteratureReview
