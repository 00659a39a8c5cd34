/-
  LiteratureReview.Json.Decoding
  ──────────────────────────────
  Reading JSON values as scalars, lists, records and tagged unions.

  A record is read field by field, each on its own, and every fault carries
  the rank of the member at which it would be met by someone who walks the
  members in order: the fault of least rank is the one reported, a missing
  field ranking behind every member.  So the result is independent of the
  order of the members whenever it is a success.

  A record may also be given as the list of its fields in order of
  declaration.
-/
import LiteratureReview.Json.Fault
import LiteratureReview.Text.Counted

namespace LiteratureReview

/-- Where a value stands while it is read: by itself, or held back inside a
tagged union until the tag was known. -/
inductive Standing where
  | free
  | held
  deriving DecidableEq, Repr

/-- A way to read values. -/
abbrev Decoder (α : Type) := Standing → Json → Except DecodeError α

namespace Decoder

/-! ## §1. Scalars. -/

/-- A refusal of a value as a whole. -/
def refuse {α : Type} (v : Json) (expected : String) : Except DecodeError α :=
  .error (.wrongType v.found expected)

/-- A text. -/
def text : Decoder String := fun _ v =>
  match v with
  | .text s => .ok s
  | v => refuse v "a string"

/-- A text that has to pass a check of its own. -/
def checkedText {α : Type} (expected : String) (check : String → Except String α) : Decoder α :=
  fun _ v =>
    match v with
    | .text s => (check s).mapError .rejected
    | v => refuse v expected

/-- A truth value. -/
def bool : Decoder Bool := fun _ v =>
  match v with
  | .bool b => .ok b
  | v => refuse v "a boolean"

/-- The integer of a number, when it lies in a range. -/
def integerOf (low high : Int) (expected : String) (n : Number) : Except DecodeError Int :=
  match n with
  | .int i =>
    if low ≤ i ∧ i ≤ high then .ok i else .error (.wrongValue (.number (.int i)) expected)
  | .float x => .error (.wrongType (.number (.float x)) expected)

/-- An integer in a range. -/
def integer (low high : Int) (expected : String) : Decoder Int := fun _ v =>
  match v with
  | .number n => integerOf low high expected n
  | v => refuse v expected

/-- An unsigned integer of thirty-two bits. -/
def u32 : Decoder UInt32 := fun at_ v =>
  (integer 0 (Decimal.twoTo 32 - 1 : Int) "u32" at_ v).map fun i => UInt32.ofNat i.toNat

/-- A natural number of sixty-four bits, under the name it is asked for by. -/
def natural (expected : String) : Decoder Nat := fun at_ v =>
  (integer 0 (Decimal.twoTo 64 - 1 : Int) expected at_ v).map Int.toNat

/-- A signed integer of sixty-four bits. -/
def i64 : Decoder Int :=
  integer (-(Decimal.twoTo 63 : Int)) (Decimal.twoTo 63 - 1 : Int) "i64"

/-- The double of a number. -/
def doubleOf : Number → Decimal.Double
  | .int i => Decimal.Double.ofInt i
  | .float x => x

/-- A number, as a double. -/
def double : Decoder Decimal.Double := fun _ v =>
  match v with
  | .number n => .ok (doubleOf n)
  | v => refuse v "f64"

/-- Any value, without the order of its members. -/
def any : Decoder Json := fun _ v => .ok v.normalize

/-- Null or something. -/
def nullable {α : Type} (d : Decoder α) : Decoder (Option α) := fun at_ v =>
  match v with
  | .null => .ok none
  | v => (d at_ v).map some

/-- A list, its elements in order. -/
def list {α : Type} (d : Decoder α) : Decoder (List α) := fun at_ v =>
  match v with
  | .list items => items.mapM (d at_)
  | v => refuse v "a sequence"

/-! ## §2. Plain enumerations. -/

/-- The value of a name. -/
def ofName {α : Type} (table : List (String × α)) (name : String) : Except DecodeError α :=
  match table.lookup name with
  | some a => .ok a
  | none => .error (.unknownVariant name (table.map (·.1)))

/-- What may stand under the name of a variant without contents: null, and an
empty object where values are held back. -/
def emptyContents (at_ : Standing) (v : Json) : Except DecodeError Unit :=
  match v, at_ with
  | .null, _ => .ok ()
  | .object [], .held => .ok ()
  | v, _ => refuse v "unit"

/-- A name, or an object whose one key is a name. -/
def choice {α : Type} (table : List (String × α)) : Decoder α := fun at_ v =>
  match v with
  | .text name => ofName table name
  | .object [(name, contents)] => do
    let a ← ofName table name
    emptyContents at_ contents
    return a
  | .object _ => .error (.wrongValue .object "map with a single key")
  | v => refuse v "string or map"

end Decoder

/-! ## §3. Readings: values, or the fault of least rank. -/

/-- A value, or a fault with the rank of the member where it is met. -/
inductive Reading (α : Type) where
  | done (value : α)
  | fault (rank : Nat) (cause : DecodeError)

namespace Reading

/-- Apply a function to the value. -/
def map {α β : Type} (f : α → β) : Reading α → Reading β
  | .done a => .done (f a)
  | .fault rank cause => .fault rank cause

/-- Two readings side by side; of two faults the one of lesser rank stays. -/
def both {α β γ : Type} (f : α → β → γ) : Reading α → Reading β → Reading γ
  | .done a, .done b => .done (f a b)
  | .done _, .fault rank cause => .fault rank cause
  | .fault rank cause, .done _ => .fault rank cause
  | .fault r c, .fault s d => if s < r then .fault s d else .fault r c

instance : Functor Reading := ⟨fun f x => map f x, fun a x => map (fun _ => a) x⟩
instance : Pure Reading := ⟨.done⟩
instance : Seq Reading := ⟨fun f x => both (fun g a => g a) f (x ())⟩

/-- The rank given to what a decoder answers. -/
def ofExcept {α : Type} (rank : Nat) : Except DecodeError α → Reading α
  | .ok a => .done a
  | .error cause => .fault rank cause

/-- The value, or the cause of the fault. -/
def toExcept {α : Type} : Reading α → Except DecodeError α
  | .done a => .ok a
  | .fault _ cause => .error cause

end Reading

/-! ## §4. Records. -/

/-- A record type: its name and the names of its fields in order. -/
structure RecordType where
  name : String
  fields : List String
  deriving Repr

namespace RecordType

/-- How the type is named where a value of another form was found. -/
def expected (t : RecordType) : String :=
  "struct " ++ t.name

/-- How the type is named where its list form is too short. -/
def expectedLength (t : RecordType) : String :=
  "struct " ++ t.name ++ " with " ++ Text.counted t.fields.length "element"

end RecordType

/-- The contents of a record that is being read. -/
inductive Contents where
  | named (members : List (String × Json))
  | listed (items : List Json)

/-- A record that is being read. -/
structure Fields where
  type : RecordType
  standing : Standing
  contents : Contents

namespace Fields

/-- The members under a key, with their positions. -/
def occurrences (members : List (String × Json)) (key : String) : List (Nat × Json) :=
  go 0 members
where
  go : Nat → List (String × Json) → List (Nat × Json)
    | _, [] => []
    | i, (k, v) :: rest => if k = key then (i, v) :: go (i + 1) rest else go (i + 1) rest

/-- The position of a field in the declaration. -/
def position (f : Fields) (field : String) : Nat :=
  f.type.fields.idxOf field

/-- Read a field; `absent` and `unlisted` answer for one that is not given in
the named and in the listed form. -/
def field {α : Type} (f : Fields) (name : String) (d : Decoder α)
    (absent unlisted : Option α) : Reading α :=
  match f.contents with
  | .named members =>
    match occurrences members name with
    | [] =>
      match absent with
      | some a => .done a
      | none => .fault (members.length + f.position name) (.missingField name)
    | (i, v) :: later =>
      match d f.standing v, later with
      | .error cause, _ => .fault i cause
      | .ok a, [] => .done a
      | .ok _, (j, _) :: _ => .fault j (.duplicateField name)
  | .listed items =>
    let i := f.position name
    match items[i]? with
    | some v => .ofExcept i (d f.standing v)
    | none =>
      match unlisted with
      | some a => .done a
      | none => .fault i (.wrongLength i f.type.expectedLength)

/-- A field that has to be given. -/
def required {α : Type} (f : Fields) (name : String) (d : Decoder α) : Reading α :=
  f.field name d none none

/-- A field that may be null or left out, also at the end of the list form. -/
def optional {α : Type} (f : Fields) (name : String) (d : Decoder α) : Reading (Option α) :=
  f.field name (Decoder.nullable d) (some none) (some none)

/-- A field that may be null or left out, but has its place in the list form. -/
def nullable {α : Type} (f : Fields) (name : String) (d : Decoder α) : Reading (Option α) :=
  f.field name (Decoder.nullable d) (some none) none

/-- A field with a value of its own for when it is left out. -/
def withDefault {α : Type} (f : Fields) (name : String) (default : α) (d : Decoder α) : Reading α :=
  f.field name d (some default) (some default)

end Fields

/-- The complaint about a list form with elements left over. -/
def tooLong (at_ : Standing) (count taken : Nat) : DecodeError :=
  match at_ with
  | .free => .wrongLength count "fewer elements in array"
  | .held => .wrongLength count (Text.counted taken "element" ++ " in sequence")

/-- Read a record. -/
def RecordType.decode {α : Type} (t : RecordType) (build : Fields → Reading α) : Decoder α :=
  fun at_ v =>
    match v with
    | .object members => (build ⟨t, at_, .named members⟩).toExcept
    | .list items => do
      let a ← (build ⟨t, at_, .listed items⟩).toExcept
      if t.fields.length < items.length then
        throw (tooLong at_ items.length t.fields.length)
      return a
    | v => Decoder.refuse v t.expected

/-! ## §5. Tagged unions. -/

/-- A union whose variant is named by a member of the object itself. -/
structure UnionType where
  name : String
  tag : String
  variants : List String
  deriving Repr

namespace UnionType

/-- How the type is named where a value of another form was found. -/
def expected (u : UnionType) : String :=
  "internally tagged enum " ++ u.name

/-- A variant by its name, or by its number where values are held back. -/
def variant (u : UnionType) : Decoder String := fun at_ v =>
  match v, at_ with
  | .text name, _ =>
    if u.variants.contains name then .ok name else .error (.unknownVariant name u.variants)
  | .number (.int i), .held =>
    if i < 0 then Decoder.refuse v "variant identifier"
    else match u.variants[i.toNat]? with
      | some name => .ok name
      | none => .error (.wrongValue (.number (.int i))
          ("variant index 0 <= i < " ++ toString u.variants.length))
  | v, _ => Decoder.refuse v "variant identifier"

/-- The variant a value names, and the value without its tag.  In the list
form the tag comes first. -/
def split (u : UnionType) (at_ : Standing) (v : Json) : Except DecodeError (String × Json) :=
  match v with
  | .object members =>
    match Fields.occurrences members u.tag with
    | [] => .error (.missingField u.tag)
    | (_, first) :: later => do
      let name ← u.variant at_ first
      if !later.isEmpty then throw (.duplicateField u.tag)
      return (name, .object (members.filter (·.1 != u.tag)))
  | .list [] => .error (.missingField u.tag)
  | .list (first :: rest) => do
    let name ← u.variant at_ first
    return (name, .list rest)
  | v => Decoder.refuse v u.expected

end UnionType

end LiteratureReview
