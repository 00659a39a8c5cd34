/-
  LiteratureReview.Schema.Registry
  ────────────────────────────────
  The published schemas by name, in the form in which faults are reported
  where they are, and checking values against them.
-/
import LiteratureReview.Project.Responses
import LiteratureReview.Schema.Check
import LiteratureReview.Schema.NullableOptions
import LiteratureReview.Schema.RowForms
import LiteratureReview.Schema.TaggedUnions

namespace LiteratureReview

/-- A violation as callers are told of it. -/
def Violation.toFieldError (x : Violation) : FieldError :=
  ⟨x.place.render, x.message⟩

namespace Registry

/-! ## §1. The schemas. -/

/-- Tagged unions and nullable options resolved. -/
def refine (schema : Json) : Json :=
  NullableOptions.resolve (TaggedUnions.resolve schema)

/-- The schema protocols are held against. -/
def protocolSchema : Json := refine Forms.reviewProtocol

/-- The published schemas, by ascending name. -/
def schemas : List (String × Json) :=
  [("exclusion_criterion", refine Forms.exclusionCriterion),
   ("extraction_field", refine Forms.extractionField),
   ("extraction_form", refine Forms.extractionForm),
   ("field_descriptor", refine Forms.fieldDescriptor),
   ("field_error", refine Forms.fieldError),
   ("install_result", refine Forms.installResult),
   ("project", refine Forms.project),
   ("project_config", refine Forms.projectConfig),
   ("project_member", refine Forms.projectMember),
   ("project_summary", refine Forms.projectSummary),
   ("qa_option", refine Forms.qaOption),
   ("qa_question", refine Forms.qaQuestion),
   ("qa_template", refine Forms.qaTemplate),
   ("review_protocol", protocolSchema),
   ("screening_phase", refine Forms.screeningPhase)]

/-- The names of the published schemas. -/
def names : List String := schemas.map (·.1)

/-- A published schema by its name. -/
def schema? (name : String) : Option Json := schemas.lookup name

/-! ## §2. Checking. -/

/-- Why a value was not accepted. -/
inductive Refusal where
  | notFound (name : String)
  | invalid (errors : ValidationErrors)
  | generation (fault : SchemaFault)
  deriving Repr

/-- The wording of a refusal. -/
def Refusal.message : Refusal → String
  | .notFound name => "Schema not found: " ++ name
  | .invalid errors => errors.message
  | .generation fault => "Schema generation error: " ++ fault.message

/-- Check a value against a published schema. -/
def validate (name : String) (v : Json) : Except Refusal Unit :=
  match schema? name with
  | none => .error (.notFound name)
  | some s =>
    match SchemaDocument.read s with
    | .error fault => .error (.generation fault)
    | .ok d =>
      match d.violations v with
      | [] => .ok ()
      | vs => .error (.invalid ⟨vs.map Violation.toFieldError⟩)

end Registry

end LiteratureReview
