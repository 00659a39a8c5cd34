/-
  LiteratureReview.Protocol.Category
  ──────────────────────────────────
  Categories: the tree of fields that data is extracted into.

  What every category has stands in its `CategoryHead`; what depends on the
  kind of category in its `CategoryKind`.  Any category may have children,
  to any depth.  In JSON the kind is named by `category_type`, and for
  dynamic lists by a second tag, `dynamic_subtype`.
-/
import LiteratureReview.Protocol.Sections

namespace LiteratureReview

open Json

/-! ## §1. Types. -/

/-- The kinds of a single value. -/
inductive ScalarType where
  | int
  | text
  | string
  | bool
  | real
  | date
  deriving DecidableEq, Repr

/-- The spellings of scalar types. -/
def ScalarType.table : List (String × ScalarType) :=
  [("int", .int), ("text", .text), ("string", .string), ("bool", .bool), ("real", .real),
   ("date", .date)]

/-- The spelling of a scalar type. -/
def ScalarType.name : ScalarType → String
  | .int => "int"
  | .text => "text"
  | .string => "string"
  | .bool => "bool"
  | .real => "real"
  | .date => "date"

/-- What every category has. -/
structure CategoryHead where
  name : Identifier
  title : Option String
  mandatory : Bool
  /-- The number of values it takes, -1 for any number. -/
  numberOfValues : Option Int64
  deriving DecidableEq, Repr

/-- What depends on the kind of category. -/
inductive CategoryKind where
  /-- A single value. -/
  | simple (type : ScalarType) (maxChar : Option UInt32) (pattern : Option String)
      (initialValue : Option Json)
  /-- One of some fixed values. -/
  | list (values : List NamedEntry)
  /-- One of some values that users may add to. -/
  | independent (referenceName : Option String) (initialValues : List NamedEntry)
  /-- One of some values that hang on the value of another category. -/
  | dependent (dependsOn : Identifier)
  deriving DecidableEq

/-- A field of the extraction tree; no list of children is not the same as an
empty one. -/
inductive Category where
  | node (head : CategoryHead) (kind : CategoryKind) (children : Option (List Category))

namespace Category

/-- What every category has. -/
def head : Category → CategoryHead
  | .node h _ _ => h

/-- What depends on its kind. -/
def kind : Category → CategoryKind
  | .node _ k _ => k

/-- The children, none when the list is left out. -/
def subCategories : Category → List Category
  | .node _ _ children => children.getD []

/-- Its name. -/
def name (c : Category) : Identifier := c.head.name

/-- The title, or the name where there is none. -/
def label (c : Category) : String :=
  c.head.title.getD c.head.name.text

/-! ## §2. Walks. -/

mutual

/-- How many categories there are in a tree. -/
def nodeCount : Category → Nat
  | .node _ _ (some children) => nodeCounts children + 1
  | .node _ _ none => 1

/-- How many categories there are in a forest. -/
def nodeCounts : List Category → Nat
  | [] => 0
  | c :: rest => nodeCount c + nodeCounts rest

end

mutual

/-- The names in a tree, each before those below it. -/
def names : Category → List Identifier
  | .node h _ (some children) => h.name :: namesOf children
  | .node h _ none => [h.name]

/-- The names in a forest, each before those below it. -/
def namesOf : List Category → List Identifier
  | [] => []
  | c :: rest => names c ++ namesOf rest

end

/-! ## §3. Reading. -/

def union : UnionType := ⟨"Category", "category_type", ["Simple", "List", "DynamicList"]⟩

def dynamicUnion : UnionType := ⟨"DynamicList", "dynamic_subtype", ["Independent", "Dependent"]⟩

def simpleType : RecordType := ⟨"SimpleCategory",
  ["name", "title", "type", "mandatory", "numberOfValues", "max_char", "pattern",
   "initial_value", "sub_categories"]⟩

def listType : RecordType := ⟨"ListCategory",
  ["name", "title", "values", "mandatory", "numberOfValues", "sub_categories"]⟩

def independentType : RecordType := ⟨"IndependentList",
  ["name", "title", "reference_name", "initial_values", "mandatory", "numberOfValues",
   "sub_categories"]⟩

def dependentType : RecordType := ⟨"DependentList",
  ["name", "title", "depends_on", "mandatory", "numberOfValues", "sub_categories"]⟩

/-- The fields every category has. -/
def headOf (f : Fields) : Reading CategoryHead :=
  CategoryHead.mk <$> f.required "name" Identifier.decode
    <*> f.optional "title" Decoder.text
    <*> f.required "mandatory" Decoder.bool
    <*> ((·.map Int64.ofInt) <$> f.optional "numberOfValues" Decoder.i64)

/-- A category of fields, a kind and a decoder for the children. -/
def nodeOf (child : Decoder Category) (kind : Fields → Reading CategoryKind) (f : Fields) :
    Reading Category :=
  Category.node <$> headOf f <*> kind f <*> f.optional "sub_categories" (Decoder.list child)

def decodeSimple (child : Decoder Category) : Decoder Category :=
  simpleType.decode <| nodeOf child fun f =>
    CategoryKind.simple <$> f.required "type" (Decoder.choice ScalarType.table)
      <*> f.optional "max_char" Decoder.u32
      <*> f.optional "pattern" Decoder.text
      <*> f.optional "initial_value" Decoder.any

def decodeList (child : Decoder Category) : Decoder Category :=
  listType.decode <| nodeOf child fun f =>
    CategoryKind.list <$> f.required "values" (Decoder.list NamedEntry.decode)

def decodeIndependent (child : Decoder Category) : Decoder Category :=
  independentType.decode <| nodeOf child fun f =>
    CategoryKind.independent <$> f.optional "reference_name" Decoder.text
      <*> f.required "initial_values" (Decoder.list NamedEntry.decode)

def decodeDependent (child : Decoder Category) : Decoder Category :=
  dependentType.decode <| nodeOf child fun f =>
    CategoryKind.dependent <$> f.required "depends_on" Identifier.decode

/-- A dynamic list, given a decoder for the children. -/
def decodeDynamicWith (child : Decoder Category) : Decoder Category := fun at_ v => do
  let (variant, contents) ← dynamicUnion.split at_ v
  if variant = "Independent" then decodeIndependent child .held contents
  else decodeDependent child .held contents

/-- A category, given a decoder for the children. -/
def decodeWith (child : Decoder Category) : Decoder Category := fun at_ v => do
  let (variant, contents) ← union.split at_ v
  if variant = "Simple" then decodeSimple child .held contents
  else if variant = "List" then decodeList child .held contents
  else decodeDynamicWith child .held contents

/-- Categories that are nested up to a number of levels. -/
def decodeUpTo : Nat → Decoder Category
  | 0 => fun _ v => Decoder.refuse v union.expected
  | levels + 1 => decodeWith (decodeUpTo levels)

/-- Read a category. -/
def decode : Decoder Category := fun at_ v =>
  decodeUpTo (v.depth + 1) at_ v

/-- Read a dynamic list. -/
def decodeDynamic : Decoder Category := fun at_ v =>
  decodeDynamicWith (decodeUpTo v.depth) at_ v

def shape : Shape := .union union (Shape.checkOf decode)

def dynamicShape : Shape := .union dynamicUnion (Shape.checkOf decodeDynamic)

/-! ## §4. Writing. -/

/-- The tags that name the kind. -/
def tags : CategoryKind → List (String × Json)
  | .simple .. => member "category_type" (.text "Simple")
  | .list .. => member "category_type" (.text "List")
  | .independent .. =>
    member "category_type" (.text "DynamicList") ++ member "dynamic_subtype" (.text "Independent")
  | .dependent .. =>
    member "category_type" (.text "DynamicList") ++ member "dynamic_subtype" (.text "Dependent")

/-- The members that stand between the title and `mandatory`. -/
def kindMembers : CategoryKind → List (String × Json)
  | .simple type _ _ _ => member "type" (.text type.name)
  | .list values => member "values" (listOf NamedEntry.encode values)
  | .independent referenceName initialValues =>
    memberIf "reference_name" .text referenceName
      ++ member "initial_values" (listOf NamedEntry.encode initialValues)
  | .dependent dependsOn => member "depends_on" dependsOn.encode

/-- The members that stand behind `numberOfValues`. -/
def limitMembers : CategoryKind → List (String × Json)
  | .simple _ maxChar pattern initialValue =>
    memberIf "max_char" u32 maxChar ++ memberIf "pattern" .text pattern
      ++ memberIf "initial_value" id initialValue
  | _ => []

/-- The members of a category, tags and children apart. -/
def ownMembers (h : CategoryHead) (k : CategoryKind) : List (String × Json) :=
  member "name" h.name.encode ++ memberIf "title" .text h.title ++ kindMembers k
    ++ member "mandatory" (.bool h.mandatory)
    ++ memberIf "numberOfValues" i64 h.numberOfValues ++ limitMembers k

mutual

/-- Write a category. -/
def encode : Category → Json
  | .node h k (some children) =>
    .object (tags k ++ ownMembers h k ++ member "sub_categories" (.list (encodeAll children)))
  | .node h k none => .object (tags k ++ ownMembers h k)

/-- Write every category of a forest. -/
def encodeAll : List Category → List Json
  | [] => []
  | c :: rest => encode c :: encodeAll rest

end

/-- Write a dynamic list as one that stands by itself. -/
def encodeDynamic (c : Category) : Json :=
  match c.encode with
  | .object members => .object (members.filter (·.1 != "category_type"))
  | v => v

end Category

end LiteratureReview
