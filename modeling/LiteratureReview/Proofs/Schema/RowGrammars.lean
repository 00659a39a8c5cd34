/-
  LiteratureReview.Proofs.Schema.RowGrammars
  ──────────────────────────────────────────
  The published schemas, form by form.

  A row is a record.  Each of its keys is given with what stands under it,
  in the order in which the row is written; the schema of the row has the
  keys in ascending order (`recordOf`).  `reads_published` says that this is
  what is read of the published schemas, which the kernel runs once; so a
  value is accepted under a name when it has no violation of the form given
  here (`validate_eq_ok_iff`).
-/
import LiteratureReview.Proofs.Schema.ProtocolGrammar

namespace LiteratureReview

open Json Grammar

/-! ## §1. Records, key by key. -/

namespace Schema

variable {known : Known} {v : Json}

/-- A key of a record, and what stands under it. -/
structure Member where
  key : String
  /-- Something has to stand there. -/
  needed : Bool
  schema : Schema

/-- A key that has to be there. -/
def need (key : String) (s : Schema) : Member := ⟨key, true, s⟩

/-- A key that may be left out. -/
def may (key : String) (s : Schema) : Member := ⟨key, false, s⟩

/-- What stands under some keys, by ascending key. -/
def tableOf (members : List Member) : List (String × Schema) :=
  (members.map fun m => (m.key, m.schema)).insertionSort fun a b => a.1 ≤ b.1

/-- The keys that have to be there. -/
def neededOf (members : List Member) : List String :=
  (members.filter (·.needed)).map (·.key)

/-- An object with some keys. -/
def recordOf (members : List Member) : Schema := record (tableOf members) (neededOf members)

theorem mem_tableOf_iff {members : List Member} {e : String × Schema} :
    e ∈ tableOf members ↔ ∃ m ∈ members, (m.key, m.schema) = e := by
  rw [tableOf, List.mem_insertionSort, List.mem_map]

/-- An integer from a number on. -/
def wholeFrom (low : Int) : Schema :=
  .all [.limit (.atLeast (.int low)), .type [.integer]]

/-- An integer of any size, or null. -/
def integerOrNull : Schema := .all [.type [.integer, .null]]

theorem holds_wholeFrom_iff {low : Int} :
    (wholeFrom low).holds known v = true ↔ IsWhole low none v := by
  cases v <;>
    simp [wholeFrom, holds, holdsAll, ValueType.holds, Limit.holds, IsWhole, and_comm]

theorem holds_integerOrNull_iff :
    integerOrNull.holds known v = true ↔
      v = .null ∨ ∃ n : Number, v = .number n ∧ n.isInteger = true := by
  cases v <;> simp [integerOrNull, holds, holdsAll, ValueType.holds]

end Schema

/-! ## §2. The forms. -/

namespace RowGrammar

open Schema

/-- The spellings of a vocabulary. -/
def spellings {α : Type} (table : List (String × α)) : Schema := oneOfTexts (table.map (·.1))

def project : SchemaDocument where
  root := recordOf
    [need "id" textual, need "label" textual, need "title" textual, may "description" textOrNull,
     need "status" (reference "ProjectStatus"), need "created_by" textual,
     need "created_at" textual]
  definitions := [("ProjectStatus", spellings ProjectStatus.table)]

def projectMember : SchemaDocument where
  root := recordOf
    [need "id" textual, need "project_id" textual, need "user_id" textual,
     need "role" (reference "MemberRole"), need "created_at" textual]
  definitions := [("MemberRole", spellings MemberRole.table)]

/-- The settings of a project, with the definitions of protocols. -/
def projectConfig : SchemaDocument where
  root := recordOf
    [need "id" textual, need "project_id" textual, need "screening_enabled" boolean,
     need "qa_enabled" boolean, need "extraction_enabled" boolean,
     need "conflict_type" (reference "ConflictMode"),
     need "conflict_resolution" (reference "ResolutionRule"),
     need "review_per_paper" (wholeFrom 0), need "validation_percentage" (wholeFrom 0),
     need "validation_enabled" boolean,
     need "validation_assignment_mode" (reference "ValidationAssignmentMode"),
     need "source_papers_enabled" boolean, need "search_strategy_enabled" boolean,
     need "protocol" (reference "ReviewProtocol"), need "created_at" textual]
  definitions :=
    [("ConflictMode", spellings ConflictMode.table),
     ("ResolutionRule", spellings ResolutionRule.table),
     ("ReviewProtocol", ProtocolGrammar.root)].foldr (List.orderedInsert fun a b => a.1 ≤ b.1)
      ProtocolGrammar.document.definitions

def exclusionCriterion : SchemaDocument where
  root := recordOf
    [need "id" textual, need "project_id" textual, need "name" textual,
     need "position" (wholeFrom 0), need "created_at" textual]
  definitions := []

def screeningPhase : SchemaDocument where
  root := recordOf
    [need "id" textual, need "project_id" textual, need "title" textual,
     may "description" textOrNull, may "fields" (anyListOrNull textual),
     need "position" (wholeFrom 0), need "created_at" textual]
  definitions := []

def qaTemplate : SchemaDocument where
  root := recordOf
    [need "id" textual, need "project_id" textual, need "min_score" numeric,
     need "created_at" textual]
  definitions := []

def qaQuestion : SchemaDocument where
  root := recordOf
    [need "id" textual, need "template_id" textual, need "text" textual,
     need "position" (wholeFrom 0)]
  definitions := []

def qaOption : SchemaDocument where
  root := recordOf
    [need "id" textual, need "question_id" textual, need "title" textual, need "score" numeric,
     need "is_positive" boolean, need "position" (wholeFrom 0)]
  definitions := []

def extractionForm : SchemaDocument where
  root := recordOf
    [need "id" textual, need "project_id" textual, need "published" boolean,
     may "published_at" textOrNull, need "created_at" textual]
  definitions := []

/-- The settings of an extraction field. -/
def fieldConfig : Schema :=
  recordOf
    [may "values" (anyListOrNull textual), may "dynamic_subtype" textOrNull,
     may "initial_values" (anyListOrNull textual), may "reference_name" textOrNull,
     may "depends_on" textOrNull, may "pattern" textOrNull, may "max_char" (wholeFromOrNull 0),
     may "initial_value" .always, may "numberOfValues" integerOrNull, need "mandatory" boolean,
     may "parent" textOrNull]

/-- What extraction fields refer to. -/
def fieldParts : List (String × Schema) :=
  [("FieldConfig", fieldConfig), ("FieldKind", spellings FieldKind.table)]

def extractionField : SchemaDocument where
  root := recordOf
    [need "id" textual, need "form_id" textual, need "name" textual, need "label" textual,
     need "field_type" (reference "FieldKind"), need "is_required" boolean,
     need "position" (wholeFrom 0), need "config" (reference "FieldConfig"),
     may "parent_id" textOrNull]
  definitions := fieldParts

def fieldDescriptor : SchemaDocument where
  root := recordOf
    [need "name" textual, need "label" textual, need "field_type" (reference "FieldKind"),
     need "is_required" boolean, need "order" (wholeFrom 0),
     may "parent_index" (wholeFromOrNull 0), need "config" (reference "FieldConfig")]
  definitions := fieldParts

def installResult : SchemaDocument where
  root := recordOf [need "projectId" textual, need "label" textual, need "title" textual]
  definitions := []

def fieldError : SchemaDocument where
  root := recordOf [need "path" textual, need "message" textual]
  definitions := []

def projectSummary : SchemaDocument where
  root := recordOf
    [need "project_id" textual, need "label" textual, need "title" textual, need "status" textual,
     need "screening_enabled" boolean, need "qa_enabled" boolean,
     need "extraction_enabled" boolean, need "exclusion_criteria" (wholeFrom 0),
     need "screening_phases" (wholeFrom 0), need "qa_questions" (wholeFrom 0),
     need "qa_options" (wholeFrom 0), need "extraction_fields" (wholeFrom 0),
     need "reports" (wholeFrom 0)]
  definitions := []

end RowGrammar

/-! ## §3. The registry. -/

namespace Registry

open RowGrammar

/-- What the published schemas say, by name. -/
def published : List (String × SchemaDocument) :=
  [("exclusion_criterion", exclusionCriterion), ("extraction_field", extractionField),
   ("extraction_form", extractionForm), ("field_descriptor", fieldDescriptor),
   ("field_error", fieldError), ("install_result", installResult), ("project", project),
   ("project_config", projectConfig), ("project_member", projectMember),
   ("project_summary", projectSummary), ("qa_option", qaOption), ("qa_question", qaQuestion),
   ("qa_template", qaTemplate), ("review_protocol", ProtocolGrammar.document),
   ("screening_phase", screeningPhase)]

/-- A published schema is read as a document. -/
def Reads (e : String × Json) (g : String × SchemaDocument) : Prop :=
  e.1 = g.1 ∧ SchemaDocument.read e.2 = .ok g.2

/-- Whether it is, to be run. -/
def reads (e : String × Json) (g : String × SchemaDocument) : Bool :=
  e.1 = g.1 && match SchemaDocument.read e.2 with
    | .ok d => d.root.same g.2.root && Schema.sameTable d.definitions g.2.definitions
    | .error _ => false

theorem reads_of {e : String × Json} {g : String × SchemaDocument} (h : reads e g = true) :
    Reads e g := by
  rw [reads, Bool.and_eq_true, decide_eq_true_eq] at h
  obtain ⟨name, same⟩ := h
  refine ⟨name, ?_⟩
  split at same
  next d read => rw [read, d.eq_of_same g.2 same]
  next => cases same

/-- **The published schemas are the ones given here.** -/
theorem reads_published : List.Forall₂ Reads schemas published := by
  -- schemas are compared by a test that the kernel can run, name by name
  have run : ((schemas.zip published).all fun e => reads e.1 e.2) = true := by decide +kernel
  have many : schemas.length = published.length := by simp only [schemas, published, List.length]
  refine List.forall₂_iff_zip.2 ⟨many, fun {e g} mem => ?_⟩
  exact reads_of (List.all_eq_true.1 run (e, g) mem)

/-- What stands under a name is read as what stands there. -/
theorem lookup_of_reads {schemas : List (String × Json)}
    {documents : List (String × SchemaDocument)} (read : List.Forall₂ Reads schemas documents)
    {name : String} {d : SchemaDocument} (found : documents.lookup name = some d) :
    ∃ s, schemas.lookup name = some s ∧ SchemaDocument.read s = .ok d := by
  induction read with
  | nil => cases found
  | @cons e g _ _ first _ ih =>
    obtain ⟨key, s⟩ := e
    obtain ⟨_, document⟩ := g
    obtain ⟨rfl, first⟩ := first
    rw [List.lookup_cons] at found ⊢
    cases same : name == key with
    | true =>
      rw [same] at found
      cases found
      exact ⟨s, rfl, first⟩
    | false =>
      rw [same] at found
      exact ih found

/-- **A value is accepted under a name when it has no violation of its form.** -/
theorem validate_eq_ok_iff {name : String} {d : SchemaDocument} {v : Json}
    (found : published.lookup name = some d) :
    validate name v = .ok () ↔ d.violations v = [] := by
  obtain ⟨s, there, read⟩ := lookup_of_reads reads_published found
  rw [validate, schema?, there]
  simp only [read]
  cases d.violations v <;> simp

end Registry

end LiteratureReview
