/-
  LiteratureReview.Proofs.Schema.Refinement
  ─────────────────────────────────────────
  The published schemas accept what the forms do that they were made from.

  A form is refined in two steps, tagged unions first and nullable options
  after them, so that faults are reported where they are.  Each step keeps
  the meaning of the form, and so do both (`meansSame_refine`).  The forms
  that are published can be refined (`isRefinable_of_mem`), so the refinement
  does not decide which values are accepted (`validate_eq_ok_iff_form`).
-/
import LiteratureReview.Proofs.Schema.Conformance
import LiteratureReview.Proofs.Schema.NullableOptions
import LiteratureReview.Proofs.Schema.TaggedUnions

namespace LiteratureReview.Registry

open Json JsonSchema

/-! ## §1. Both steps. -/

/-- A form that both steps can be taken at, one after the other. -/
structure IsRefinable (form : Json) : Prop where
  ordered : form.IsOrdered
  tagged : TaggedUnions.IsDispatchableSchema form
  plain : NullableOptions.IsPlain (TaggedUnions.resolve form)

instance (form : Json) : Decidable (IsRefinable form) :=
  decidable_of_iff (form.IsOrdered ∧ TaggedUnions.IsDispatchableSchema form ∧
      NullableOptions.IsPlain (TaggedUnions.resolve form))
    ⟨fun ⟨ordered, tagged, plain⟩ => ⟨ordered, tagged, plain⟩,
      fun ⟨ordered, tagged, plain⟩ => ⟨ordered, tagged, plain⟩⟩

variable {form : Json} {name : String} {d : SchemaDocument}

theorem isOrdered_dispatch (ordered : form.IsOrdered) : (TaggedUnions.resolve form).IsOrdered :=
  isOrdered_rewriteObjects TaggedUnions.isSound_dispatch ordered

/-- **A refined form is equivalent to the form.** -/
theorem equivalent_refine (h : IsRefinable form) : Equivalent (refine form) form := by
  have unions : Equivalent (TaggedUnions.resolve form) form :=
    equivalent_rewriteObjects TaggedUnions.isSound_dispatch _ h.ordered h.tagged
  have options : Equivalent (refine form) (TaggedUnions.resolve form) :=
    equivalent_rewriteObjects NullableOptions.isSound_unfold _ (isOrdered_dispatch h.ordered)
      h.plain
  exact fun d beyond n v => (options d beyond n v).trans (unions d beyond n v)

/-- A refined form holds as many definitions. -/
theorem definitionCount_refine (h : IsRefinable form) :
    definitionCount (refine form) = definitionCount form :=
  (definitionCount_rewriteObjects NullableOptions.isSound_unfold _ h.plain).trans
    (definitionCount_rewriteObjects TaggedUnions.isSound_dispatch _ h.tagged)

/-- **Refining a form keeps its meaning.** -/
theorem meansSame_refine (h : IsRefinable form) : MeansSame (refine form) form :=
  .of_equivalent (equivalent_refine h) (definitionCount_refine h)
    (isOrdered_rewriteObjects NullableOptions.isSound_unfold
      (isOrdered_dispatch h.ordered)).isProper h.ordered.isProper

/-! ## §2. The forms that are published. -/

/-- The forms of the published schemas, by ascending name. -/
def forms : List (String × Json) :=
  [("exclusion_criterion", Forms.exclusionCriterion), ("extraction_field", Forms.extractionField),
   ("extraction_form", Forms.extractionForm), ("field_descriptor", Forms.fieldDescriptor),
   ("field_error", Forms.fieldError), ("install_result", Forms.installResult),
   ("project", Forms.project), ("project_config", Forms.projectConfig),
   ("project_member", Forms.projectMember), ("project_summary", Forms.projectSummary),
   ("qa_option", Forms.qaOption), ("qa_question", Forms.qaQuestion),
   ("qa_template", Forms.qaTemplate), ("review_protocol", Forms.reviewProtocol),
   ("screening_phase", Forms.screeningPhase)]

/-- A value is read as a document. -/
def isRead (schema : Json) : Bool :=
  match SchemaDocument.read schema with
  | .ok _ => true
  | .error _ => false

theorem exists_of_isRead (h : isRead form = true) : ∃ d, SchemaDocument.read form = .ok d := by
  unfold isRead at h
  split at h
  next d done => exact ⟨d, done⟩
  next => cases h

/-- The forms are evaluated once for both. -/
theorem isRefinable_and_isRead_of_mem : ∀ e ∈ forms, IsRefinable e.2 ∧ isRead e.2 = true := by
  decide +kernel

theorem isRefinable_of_mem (mem : (name, form) ∈ forms) : IsRefinable form :=
  (isRefinable_and_isRead_of_mem _ mem).1

/-- Forms and what they are refined to are read. -/
theorem exists_read (mem : (name, form) ∈ forms) :
    (∃ d, SchemaDocument.read form = .ok d) ∧ ∃ d, SchemaDocument.read (refine form) = .ok d := by
  have listed : (name, refine form) ∈ schemas :=
    List.mem_map_of_mem (f := fun e : String × Json => (e.1, refine e.2)) mem
  obtain ⟨g, -, -, read⟩ := exists_of_mem_left reads_published listed
  exact ⟨exists_of_isRead (isRefinable_and_isRead_of_mem _ mem).2, g.2, read⟩

/-- **A published schema accepts the values in which its form finds no violation.** -/
theorem validate_eq_ok_iff_form (mem : (name, form) ∈ forms) :
    ∃ d, SchemaDocument.read form = .ok d ∧
      ∀ v, validate name v = .ok () ↔ d.violations v = [] := by
  have distinct : (schemas.map (·.1)).Nodup := by decide +kernel
  have found : schema? name = some (refine form) := by
    refine lookup_of_mem distinct ?_
    exact List.mem_map_of_mem (f := fun e : String × Json => (e.1, refine e.2)) mem
  obtain ⟨⟨d, done⟩, d', done'⟩ := exists_read mem
  refine ⟨d, done, fun v => ?_⟩
  rw [validate, found,
    ← (meansSame_refine (isRefinable_of_mem mem)).violations d' d done' done v]
  simp only [done']
  cases d'.violations v <;> simp

end LiteratureReview.Registry
