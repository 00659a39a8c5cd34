/-
  LiteratureReview.Schema.Rewriting
  ─────────────────────────────────
  Changing a schema in its JSON form at every object it holds, outermost
  objects first.
-/
import LiteratureReview.Json.Basic

namespace LiteratureReview

/-- The members of an object, by ascending key. -/
abbrev Members := List (String × Json)

/-- Remove a key. -/
def Members.without (members : Members) (key : String) : Members :=
  members.filter fun m => m.1 != key

namespace Json

/-- Apply a step to every object down to a depth: first to the object, then
to what it holds after that. -/
def rewriteObjects (step : Members → Members) : Nat → Json → Json
  | 0, v => v
  | n + 1, .object members =>
    .object ((step members).map fun m => (m.1, rewriteObjects step n m.2))
  | n + 1, .list items => .list (items.map (rewriteObjects step n))
  | _ + 1, v => v

end Json

end LiteratureReview
