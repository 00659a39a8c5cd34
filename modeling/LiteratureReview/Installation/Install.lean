/-
  LiteratureReview.Installation.Install
  ─────────────────────────────────────
  Installing protocols.

  A plan is carried out in one transaction: either all its rows are added,
  or the database is what it was.  That a label is taken is looked up before
  a plan is made; when it is taken in the meantime, the constraint on labels
  tells so.
-/
import LiteratureReview.Installation.Plan
import LiteratureReview.Store.Queries
import LiteratureReview.Validation.Validator

namespace LiteratureReview

/-- Why an installation failed. -/
inductive InstallError where
  | validation (errors : ValidationErrors)
  | conflict (label : String)
  | internal (cause : DatabaseError)
  deriving DecidableEq, Repr

/-- The wording of an installation error. -/
def InstallError.message : InstallError → String
  | .validation errors => errors.message
  | .conflict label => "a project labelled `" ++ label ++ "` already exists"
  | .internal _ => "Project installation failed"

/-! ## §1. The rows of a plan. -/

namespace InstallPlan

/-- The rows of the quality assessment, in the order in which they are written. -/
def qualityRows : Option QualityPlan → List (EntityType × Row)
  | none => []
  | some q =>
    (.qaTemplate, q.template.toRow)
      :: q.questions.map (fun r => (.qaQuestion, r.toRow))
      ++ q.options.map fun r => (.qaOption, r.toRow)

/-- The rows of the form, in the order in which they are written. -/
def formRows (form : Option ExtractionForm) (fields : List ExtractionField) :
    List (EntityType × Row) :=
  match form with
  | none => []
  | some f =>
    (.extractionForm, f.toRow) :: fields.map fun r => (.extractionField, r.toRow)

/-- Every row of a plan, in the order in which they are written. -/
def rows (plan : InstallPlan) : List (EntityType × Row) :=
  [(.project, plan.project.toRow), (.projectMember, plan.member.toRow),
   (.projectConfig, plan.config.toRow)]
    ++ plan.criteria.map (fun r => (.exclusionCriterion, r.toRow))
    ++ plan.phases.map (fun r => (.screeningPhase, r.toRow))
    ++ qualityRows plan.quality
    ++ formRows plan.form plan.fields

end InstallPlan

/-! ## §2. Transactions. -/

namespace Database

/-- Write rows one after the other, up to the first that breaks a constraint. -/
def write (db : Database) : List (EntityType × Row) → Except Constraint Database
  | [] => .ok db
  | (entity, row) :: rest => do (← db.insert entity row).write rest

/-- What a failure means to the one who installs. -/
def classify (label : String) (e : DatabaseError) : InstallError :=
  if e.isLabelConflict then .conflict label else .internal e

/-- Carry a plan out, in one transaction. -/
def apply (db : Database) (plan : InstallPlan) : Database × Except InstallError InstallResult :=
  match db.write plan.rows with
  | .ok after => (after, .ok plan.result)
  | .error broken => (db, .error (classify plan.label (.engine (.constraint broken))))

/-- Install a protocol. -/
def install (db : Database) (by_ : Provision) (p : ReviewProtocol) (user : String) :
    Database × Except InstallError InstallResult :=
  match db.findProject p.label with
  | .error e => (db, .error (.internal e))
  | .ok (some _) => (db, .error (.conflict p.label))
  | .ok none =>
    match InstallPlan.build by_ p user with
    | .error e => (db, .error (.internal e))
    | .ok plan => db.apply plan

/-- Validate a document and install its protocol. -/
def installDocument (db : Database) (by_ : Provision) (document : Json) (user : String) :
    Database × Except InstallError InstallResult :=
  match Validator.validate document with
  | .error e => (db, .error (.validation e))
  | .ok p => db.install by_ p user

end Database

end LiteratureReview
