/-
  LiteratureReview.Schema.TaggedUnions
  ────────────────────────────────────
  Unions told apart by a tag.

  Where the branches of a `oneOf` all fix one member, the tag, to texts that
  are pairwise distinct, the `oneOf` is replaced: the value has to be an
  object, its tag one of those texts, and to the tag's text belongs a
  conditional with the branch itself.  So a fault inside the chosen branch is
  reported where it is, and not as a fault of the union.
-/
import LiteratureReview.Schema.Rewriting

namespace LiteratureReview.TaggedUnions

open Json

/-! ## §1. Finding the tag. -/

/-- The text a member is fixed to by its schema. -/
def constantText (property : Json) : Option String :=
  match property.get? "const", property.get? "enum" with
  | some v, _ => v.asText?
  | none, some (.list [v]) => v.asText?
  | none, _ => none

/-- The members that a schema's own properties fix to a text. -/
def fixedHere (schema : Json) : List (String × String) :=
  match schema.get? "properties" with
  | some (.object properties) =>
    properties.filterMap fun m => (constantText m.2).map fun s => (m.1, s)
  | _ => []

/-- The members a branch fixes to a text, those of its `allOf` last. -/
def fixedMembers (branch : Json) : List (String × String) :=
  fixedHere branch ++
    match branch.get? "allOf" with
    | some (.list parts) => parts.flatMap fixedHere
    | _ => []

/-- The texts of a tag in all branches, if they are pairwise distinct. -/
def tagValues (tag : String) (branches : List Json) : Option (List String) := do
  let values ← branches.mapM fun b => (fixedMembers b).lookup tag
  if values.Nodup then some values else none

/-- The first member of the first branch that tells all branches apart, with
the text it has in each of them. -/
def commonTag : List Json → Option (String × List String)
  | [] => none
  | first :: rest =>
    (fixedMembers first).findSome? fun m =>
      (tagValues m.1 (first :: rest)).map fun values => (m.1, values)

/-! ## §2. Dispatching on the tag. -/

/-- The branch that belongs to a text of the tag. -/
def onTag (tag value : String) (branch : Json) : Json :=
  .object
    [("if", .object
      [("properties", .object [(tag, .object [("const", .text value)])]),
       ("required", .list [.text tag])]),
     ("then", branch)]

/-- The schema of the tag. -/
def tagSchema (values : List String) : Json :=
  .object [("enum", texts values), ("type", .text "string")]

/-- Change what stands under a key, or what is put there if nothing does. -/
def change (key : String) (empty : Json) (f : Json → Json) (members : Members) : Members :=
  insertMember key (f ((members.lookup key).getD empty)) members

/-- Demand a key, in a list of demanded keys. -/
def demandKey (key : String) : Json → Json
  | .list keys => .list (if keys.contains (.text key) then keys else keys ++ [.text key])
  | other => other

/-- Add schemas to a list of them. -/
def addAll (more : List Json) : Json → Json
  | .list parts => .list (parts ++ more)
  | other => other

/-- Replace the `oneOf` of one object. -/
def dispatch (members : Members) : Members :=
  match members.lookup "oneOf" with
  | some (.list branches) =>
    match commonTag branches with
    | some (tag, values) =>
      Members.without members "oneOf"
        |> insertMember "type" (.text "object")
        |> change "required" (.list []) (demandKey tag)
        |> change "properties" (.object []) (fun v => v.set tag (tagSchema values))
        |> change "allOf" (.list []) (addAll (List.zipWith (onTag tag) values branches))
    | none => members
  | _ => members

/-- Replace every `oneOf` that a tag tells apart. -/
def resolve (schema : Json) : Json :=
  schema.rewriteObjects dispatch (2 * schema.depth + 8)

end LiteratureReview.TaggedUnions
