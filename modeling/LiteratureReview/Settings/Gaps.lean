/-
  LiteratureReview.Settings.Gaps
  ──────────────────────────────
  Filling the gaps of an incomplete protocol from the settings.

  A document without categories gets one field, a screening section without
  criteria one criterion.  Whatever has the wrong form is left as it is.
-/
import LiteratureReview.Settings.Basic

namespace LiteratureReview

open Json

/-- Nothing stands there, or null, or a list without elements. -/
def Json.isGap : Option Json → Bool
  | none | some .null | some (.list []) => true
  | some _ => false

namespace DefaultsSettings

/-- The categories of a document that has none. -/
def categories (d : DefaultsSettings) : Json :=
  .list [ofMembers
    [("category_type", .text "Simple"),
     ("name", .text d.extractionField.name),
     ("title", .text d.extractionField.title),
     ("type", .text d.extractionField.type),
     ("mandatory", .bool false)]]

/-- The criteria of a screening section that has none. -/
def criteria (d : DefaultsSettings) : Json :=
  .list [.object [("name", .text d.exclusionCriterion)]]

/-- Put a value where there is a gap. -/
def fillGap (key : String) (value v : Json) : Json :=
  match v with
  | .object members => if isGap (members.lookup key) then v.set key value else v
  | other => other

/-- Fill the gap in the screening section, if there is a section. -/
def fillScreening (d : DefaultsSettings) (v : Json) : Json :=
  match v.get? "screening" with
  | some (.object members) =>
    v.set "screening" (fillGap "exclusion_criteria" d.criteria (.object members))
  | _ => v

/-- Fill the gaps of a document. -/
def fill (d : DefaultsSettings) (document : Json) : Json :=
  d.fillScreening (fillGap "category" d.categories document)

end DefaultsSettings

end LiteratureReview
