/-
  LiteratureReview.Schema.NullableOptions
  ───────────────────────────────────────
  Values that may be null.

  An `anyOf` of some schema and the schema of null alone is replaced by a
  conditional that holds everything but null against that schema.  So a
  fault inside the value is reported where it is.
-/
import LiteratureReview.Schema.Rewriting

namespace LiteratureReview.NullableOptions

open Json

/-- The schema of null alone. -/
def nullSchema : Json := .object [("type", .text "null")]

/-- The condition that a value is not null. -/
def notNull : Json := .object [("not", nullSchema)]

/-- What stands beside the schema of null; of two such the second. -/
def beside : List Json → Option Json
  | [a, b] => if a = nullSchema then some b else if b = nullSchema then some a else none
  | _ => none

/-- Replace the `anyOf` of one object, unless it has a conditional already. -/
def unfold (members : Members) : Members :=
  if (members.lookup "if").isSome || (members.lookup "then").isSome then members
  else match members.lookup "anyOf" with
    | some (.list branches) =>
      match beside branches with
      | some content =>
        Members.without members "anyOf" |> insertMember "if" notNull |> insertMember "then" content
      | none => members
    | _ => members

/-- Replace every `anyOf` of a schema and the schema of null. -/
def resolve (schema : Json) : Json :=
  schema.rewriteObjects unfold (2 * schema.depth + 8)

end LiteratureReview.NullableOptions
