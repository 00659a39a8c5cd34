/-
  LiteratureReview.Proofs.Validation.Paths
  ────────────────────────────────────────
  The places that are reported, and what they depend on.

  Both passes report the same places for a document and for its canonical
  form, in the same order.  The messages need not be the same: they print the
  value, with all its members.  That repeated errors are left out makes no
  difference, since in one document errors are repeated when their places and
  their wordings are.
-/
import LiteratureReview.Proofs.Schema.Places
import LiteratureReview.Proofs.Validation.Canonical
import LiteratureReview.Proofs.Validation.Names

namespace LiteratureReview.Validator

open Json Layout

variable {v w : Json}

/-! ## §1. The grammar. -/

/-- Whatever the grammar demands is worded such that the value can be left out. -/
theorem isTold_of_mem_breaches :
    ∀ b ∈ ProtocolGrammar.document.breaches, b.wording.isTold = true := by
  -- these two are worded with a key and with a value, which need not be run
  have all : (ProtocolGrammar.document.breaches.all fun
      | .missing _ | .constant _ => true
      | b => b.wording.isTold) = true := by
    decide +kernel
  intro b mem
  have told := List.all_eq_true.1 all b mem
  cases b with
  | missing key => exact isTold_missing key
  | constant wanted => exact isTold_constant wanted
  | _ => exact told

/-- The errors of the grammar are the violations that differ in place or wording. -/
theorem paths_grammarErrors (v : Json) :
    (grammarErrors v).map (·.path) =
      ((grammar.violations v).map Violation.claim).eraseDups.map fun c => c.1.render := by
  refine map_eraseDups_congr (fun x left y right => ?_) fun _ _ => rfl
  rw [ProtocolGrammar.grammar_eq] at left right
  exact Violation.IsBy.toFieldError_eq_iff isTold_of_mem_breaches
    (SchemaDocument.isBy_of_mem_violations left) (SchemaDocument.isBy_of_mem_violations right)

/-- Values with the same outlines of violations have errors at the same places. -/
theorem paths_grammarErrors_congr
    (same : (grammar.violations v).map Violation.outline =
      (grammar.violations w).map Violation.outline) :
    (grammarErrors v).map (·.path) = (grammarErrors w).map (·.path) := by
  have claims : ∀ xs : List Violation, xs.map Violation.claim =
      (xs.map Violation.outline).map fun o => (o.1, o.2.wording) :=
    fun xs => by rw [List.map_map]; rfl
  rw [paths_grammarErrors, paths_grammarErrors, claims, claims, same]

/-! ## §2. Documents. -/

/-- Whether an error is added depends on the places reported, and so do the places reported
then. -/
theorem paths_addUnlessReported {before before' : List FieldError} (e : FieldError)
    (same : before.map (·.path) = before'.map (·.path)) :
    (addUnlessReported before e).map (·.path) = (addUnlessReported before' e).map (·.path) := by
  have reported : (before.any (·.path == e.path)) = before'.any (·.path == e.path) := by
    have any := congrArg (List.any · (· == e.path)) same
    rwa [List.any_map, List.any_map] at any
  rw [addUnlessReported, addUnlessReported, reported]
  split
  · exact same
  · rw [List.map_append, List.map_append, same]

theorem paths_foldl_addUnlessReported {before before' found : List FieldError}
    (same : before.map (·.path) = before'.map (·.path)) :
    (found.foldl addUnlessReported before).map (·.path) =
      (found.foldl addUnlessReported before').map (·.path) := by
  induction found generalizing before before' with
  | nil => exact same
  | cons e rest ih => exact ih (paths_addUnlessReported e same)

/-- **The same places are reported for a document and for its canonical form.** -/
theorem paths_errors_canon (proper : v.IsProper) :
    (errors (canon (.record .document) v)).map (·.path) = (errors v).map (·.path) := by
  rw [errors, errors, References.findings_canon proper]
  exact paths_foldl_addUnlessReported
    (paths_grammarErrors_congr (ProtocolGrammar.map_outline_violations proper).symm)

/-- A document with errors is refused with these. -/
theorem validate_of_unclean (unclean : errors v ≠ []) : validate v = .error ⟨errors v⟩ := by
  unfold validate
  split
  next clean => exact absurd clean unclean
  next => rfl

theorem errors_canon_eq_nil_iff (proper : v.IsProper) :
    errors (canon (.record .document) v) = [] ↔ errors v = [] := by
  rw [← List.map_eq_nil_iff (f := (·.path)), paths_errors_canon proper, List.map_eq_nil_iff]

end LiteratureReview.Validator
