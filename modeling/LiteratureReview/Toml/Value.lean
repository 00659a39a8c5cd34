/-
  LiteratureReview.Toml.Value
  ───────────────────────────
  The values of a TOML document.
-/
import LiteratureReview.Decimal.Double

namespace LiteratureReview.Toml

open Decimal

/-- A value.  A date, with or without a time, or a time alone, is kept as it
is written. -/
inductive Value where
  | bool (value : Bool)
  | integer (value : Int)
  | float (value : Double)
  | text (value : String)
  | date (written : String)
  | array (elements : List Value)
  | table (members : List (String × Value))
  deriving Repr

end LiteratureReview.Toml
