/-
  LiteratureReview.Json.Encoding
  ──────────────────────────────
  Writing records as objects: members in order of declaration, and of the
  optional ones only those that are there.
-/
import LiteratureReview.Json.Basic

namespace LiteratureReview.Json

/-- A member that is always written. -/
def member (key : String) (value : Json) : List (String × Json) :=
  [(key, value)]

/-- A member that is written when there is a value. -/
def memberIf {α : Type} (key : String) (write : α → Json) : Option α → List (String × Json)
  | some a => [(key, write a)]
  | none => []

/-- A value, or null. -/
def orNull {α : Type} (write : α → Json) : Option α → Json
  | some a => write a
  | none => .null

/-- A list of written values. -/
def listOf {α : Type} (write : α → Json) (items : List α) : Json :=
  .list (items.map write)

/-- A double. -/
def double (x : Decimal.Double) : Json :=
  .number (.float x)

/-- An unsigned integer of thirty-two bits. -/
def u32 (n : UInt32) : Json :=
  nat n.toNat

/-- A signed integer of sixty-four bits. -/
def i64 (i : Int64) : Json :=
  .number (.int i.toInt)

end LiteratureReview.Json
