/-
  LiteratureReview.Proofs.Installation.Transaction
  ────────────────────────────────────────────────
  Carrying a plan out, all of it or nothing.

  Nothing is assumed of the database, nor of the plan: it may have been
  changed in any column after it was made.  Either every table has the rows
  of the plan behind those it had, or the database is what it was.

    • `counts_append` — how many rows a transaction adds,
    • `labels_of_write` — the labels of a database,
    • `apply_of_label_taken`, `apply_of_other_broken` — how a plan fails,
    • `apply_all_or_nothing` — what may come of a plan.
-/
import LiteratureReview.Proofs.Installation.Lasting

namespace LiteratureReview

open EntityType

/-! ## §1. How many rows there are. -/

namespace InstallPlan

variable {plan : InstallPlan}

/-- There are no fields without a form. -/
def HasFormForFields (plan : InstallPlan) : Prop :=
  plan.fields ≠ [] → plan.form.isSome = true

/-- A plan counts the rows that are written. -/
theorem length_rows (formed : plan.HasFormForFields) : plan.rows.length = plan.rowCount := by
  have unformed : plan.form = none → plan.fields = [] := by
    intro missing
    refine Classical.byContradiction fun some => ?_
    have there := formed some
    rw [missing] at there
    cases there
  unfold rows rowCount
  cases quality : plan.quality <;> cases form : plan.form
  case none.none => simp [qualityRows, formRows, unformed form]; omega
  case some.none => simp [qualityRows, formRows, unformed form]; omega
  case none.some => simp [qualityRows, formRows]; omega
  case some.some => simp [qualityRows, formRows]; omega

end InstallPlan

namespace Database

variable {db after : Database} {plan : InstallPlan} {s : String}

/-- One row more is one row more in one table. -/
theorem counts_add (db : Database) (entity : EntityType) (row : Row) :
    (db.add entity row).counts.sum = db.counts.sum + 1 := by
  cases entity <;> simp [counts, EntityType.all, rows_add] <;> omega

/-- A transaction adds as many rows as there are in it. -/
theorem counts_append (db : Database) (writes : List (EntityType × Row)) :
    (db.append writes).counts.sum = db.counts.sum + writes.length := by
  induction writes generalizing db with
  | nil => rfl
  | cons w rest ih =>
    rw [append, ih, counts_add, List.length_cons]
    omega

/-! ## §2. Labels. -/

/-- The label of a row of a project. -/
def labelOf (row : Row) : Option String :=
  match EntityType.project.cellAt "label" row with
  | .text s => some s
  | .null | .int _ | .real _ => none

/-- The labels of all projects. -/
def labels (db : Database) : List String := db.projects.filterMap labelOf

theorem labelOf_eq_some_iff {row : Row} :
    labelOf row = some s ↔ EntityType.project.cellAt "label" row = .text s := by
  unfold labelOf
  split
  next t label => simp [label]
  all_goals simp_all

theorem mem_labels_iff : s ∈ db.labels ↔ db.HasLabel s := by
  unfold labels HasLabel
  rw [List.mem_filterMap]
  exact exists_congr fun row => and_congr_right fun _ => labelOf_eq_some_iff

/-- A plan that is carried out adds its label. -/
theorem labels_of_write (h : db.write plan.rows = .ok after) :
    after.labels = db.labels ++ [plan.label] := by
  have rows : after.projects = db.projects ++ [plan.project.toRow] := rows_of_write h .project
  have label : labelOf plan.project.toRow = some plan.label := labelOf_eq_some_iff.2 rfl
  unfold labels
  rw [rows, List.filterMap_append, List.filterMap_cons, label]
  rfl

/-! ## §3. What may come of a plan. -/

theorem apply_of_write (h : db.write plan.rows = .ok after) :
    db.apply plan = (after, .ok plan.result) := by
  rw [apply, h]

theorem write_of_apply {result : InstallResult}
    (h : db.apply plan = (after, .ok result)) : db.write plan.rows = .ok after := by
  unfold apply at h
  cases written : db.write plan.rows with
  | ok stored =>
    rw [written] at h
    cases h
    rfl
  | error broken =>
    rw [written] at h
    cases h

/-- A plan with a taken label ends in a conflict. -/
theorem apply_of_label_taken (taken : db.HasLabel plan.label) :
    db.apply plan = (db, .error (.conflict plan.label)) := by
  have written := write_of_label_taken taken
  have understood := DatabaseError.isLabelConflict_iff (mem_constraints_of_write written)
  rw [apply, written]
  simp only [classify, understood.2 rfl, if_true]

/-- A plan that breaks something else than the key on labels fails internally. -/
theorem apply_of_other_broken {broken : Constraint} (free : ¬db.HasLabel plan.label)
    (h : db.write plan.rows = .error broken) :
    db.apply plan = (db, .error (.internal (.engine (.constraint broken)))) := by
  have other := InstallPlan.broken_ne_label free h
  have understood := DatabaseError.isLabelConflict_iff (mem_constraints_of_write h)
  rw [apply, h]
  simp only [classify, understood, other, if_false]

/-- **A plan is carried out as a whole or not at all.**  When it goes well, every table has
the rows of the plan behind its own, as many as the plan counts.  When it fails, the
database is what it was; the failure is a conflict exactly when the label of the plan is
taken, and internal otherwise. -/
theorem apply_all_or_nothing (db : Database) (plan : InstallPlan) (formed : plan.HasFormForFields) :
    (∃ after, db.apply plan = (after, .ok plan.result) ∧ ¬db.HasLabel plan.label ∧
      (∀ entity, after.rows entity = db.rows entity ++ plan.kept entity) ∧
        after.counts.sum = db.counts.sum + plan.rowCount) ∨
    (∃ failure, db.apply plan = (db, .error failure) ∧
      (failure = .conflict plan.label ∧ db.HasLabel plan.label ∨
        (∃ cause, failure = .internal cause) ∧ ¬db.HasLabel plan.label)) := by
  by_cases taken : db.HasLabel plan.label
  · exact .inr ⟨_, apply_of_label_taken taken, .inl ⟨rfl, taken⟩⟩
  cases written : db.write plan.rows with
  | ok after =>
    refine .inl ⟨after, apply_of_write written, taken, rows_of_write written, ?_⟩
    rw [write_eq_append written, counts_append, InstallPlan.length_rows formed]
  | error broken =>
    exact .inr ⟨_, apply_of_other_broken taken written, .inr ⟨⟨_, rfl⟩, taken⟩⟩

/-- A plan that was changed after it was made: nobody reviews the papers. -/
def unreviewedPlan : InstallPlan :=
  let plan := InstallPlan.of countingProvision smallProtocol "ada"
  { plan with config := { plan.config with reviewPerPaper := 0 } }

theorem apply_all_or_nothing_unreviewed :
    unreviewedPlan.HasFormForFields ∧
      ∃ cause, apply {} unreviewedPlan = ({}, .error (.internal cause)) := by
  have formed : unreviewedPlan.HasFormForFields := fun _ => rfl
  refine ⟨formed, ?_⟩
  rcases apply_all_or_nothing {} unreviewedPlan formed with
    ⟨after, done, _⟩ | ⟨failure, failed, ⟨_, taken⟩ | ⟨⟨cause, rfl⟩, _⟩⟩
  · -- the third row breaks a condition, so that all three are taken back
    have bounds := withinBounds_of_write (write_of_apply done)
    exact absurd bounds.1 (by decide)
  · obtain ⟨row, stored, _⟩ := taken
    cases stored
  · exact ⟨cause, failed⟩

end Database

end LiteratureReview
