/-
  LiteratureReview.Schema.Violation
  ─────────────────────────────────
  How a value can fall short of a schema, and the wording of each case.
-/
import LiteratureReview.Json.Pointer
import LiteratureReview.Json.Printer
import LiteratureReview.Schema.Basic
import LiteratureReview.Text.Counted

namespace LiteratureReview

/-- What a value breaks. -/
inductive Breach where
  | type (wanted : List ValueType)
  | missing (key : String)
  | constant (wanted : Json)
  | enumeration (wanted : List Json)
  | limit (bound : Limit)
  | extent (bound : Extent)
  | pattern (source : String)
  | noneOfAny
  | noneOfOne
  | severalOfOne
  | negated
  | never
  deriving Repr

/-- A value at a place, and what it breaks. -/
structure Violation where
  place : Pointer
  value : Json
  breach : Breach
  deriving Repr

/-- A type or several, in quotation marks. -/
def quotedTypes : List ValueType → String
  | [t] => "type \"" ++ t.name ++ "\""
  | ts => "types " ++ ", ".intercalate (ts.map fun t => "\"" ++ t.name ++ "\"")

/-- What is wrong with a number outside its limit. -/
def Limit.complaint : Limit → String
  | .atLeast n => "is less than the minimum of " ++ n.print
  | .atMost n => "is greater than the maximum of " ++ n.print
  | .above n => "is less than or equal to the minimum of " ++ n.print
  | .below n => "is greater than or equal to the maximum of " ++ n.print

/-- What is wrong with a text or list outside its limit. -/
def Extent.complaint : Extent → String
  | .lengthAtLeast n => "is shorter than " ++ Text.counted n "character"
  | .lengthAtMost n => "is longer than " ++ Text.counted n "character"
  | .countAtLeast n => "has less than " ++ Text.counted n "item"
  | .countAtMost n => "has more than " ++ Text.counted n "item"

/-- The wording of a violation. -/
def Violation.message (x : Violation) : String :=
  let v := x.value.print
  match x.breach with
  | .type wanted => v ++ " is not of " ++ quotedTypes wanted
  | .missing key => Json.printText key ++ " is a required property"
  | .constant wanted => wanted.print ++ " was expected"
  | .enumeration wanted => v ++ " is not one of " ++ (Json.list wanted).print
  | .limit bound => v ++ " " ++ bound.complaint
  | .extent bound => v ++ " " ++ bound.complaint
  | .pattern source => v ++ " does not match \"" ++ source ++ "\""
  | .noneOfAny => v ++ " is not valid under any of the schemas listed in the 'anyOf' keyword"
  | .noneOfOne => v ++ " is not valid under any of the schemas listed in the 'oneOf' keyword"
  | .severalOfOne =>
    v ++ " is valid under more than one of the schemas listed in the 'oneOf' keyword"
  | .negated => v ++ " is not allowed"
  | .never => "False schema does not allow " ++ v

end LiteratureReview
