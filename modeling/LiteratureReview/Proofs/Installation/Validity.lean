/-
  LiteratureReview.Proofs.Installation.Validity
  ─────────────────────────────────────────────
  Databases that meet the constraints of their tables.

  Which rows a table can hold together is said once (`Holds`), and does not depend
  on their order: so adding a row, changing rows one after the other, and leaving
  rows out are the same argument.  What one statement preserves
  (`MeetsConstraints.change`), every sequence of installations and statements
  preserves (`MeetsConstraints.evolves`).
-/
import LiteratureReview.Proofs.Installation.Reachable

namespace LiteratureReview

/-! ## §1. Rows that a table can hold. -/

namespace EntityType

variable {entity : EntityType} {a b row : Row} {rows others : List Row}

theorem sameKey_comm (key : List String) (a b : Row) :
    entity.sameKey key a b = entity.sameKey key b a := by
  unfold sameKey
  refine congrArg key.all (funext fun column => ?_)
  exact Cell.agrees_comm _ _

theorem Clash.symm (h : entity.Clash a b) : entity.Clash b a := by
  obtain ⟨key, known, same⟩ := h
  exact ⟨key, known, by rw [sameKey_comm]; exact same⟩

/-- A table can hold some rows together: each has all its columns, with values that are not
missing where they must not be and are accepted, and no two have a key in common. -/
structure Holds (entity : EntityType) (rows : List Row) : Prop where
  whole : ∀ row ∈ rows, row.length = entity.layout.columns.length
  given : ∀ row ∈ rows, entity.findMissing row = none
  accepted : ∀ row ∈ rows, entity.findUnmet row = none
  apart : rows.Pairwise fun a b => ¬entity.Clash a b

theorem holds_nil : entity.Holds [] :=
  ⟨nofun, nofun, nofun, .nil⟩

/-- The order of the rows is of no importance. -/
theorem Holds.perm (holds : entity.Holds rows) (same : rows.Perm others) :
    entity.Holds others where
  whole row mem := holds.whole row (same.mem_iff.2 mem)
  given row mem := holds.given row (same.mem_iff.2 mem)
  accepted row mem := holds.accepted row (same.mem_iff.2 mem)
  apart := (same.pairwise_iff fun apart clash => apart clash.symm).1 holds.apart

theorem Holds.sublist (holds : entity.Holds rows) (part : others.Sublist rows) :
    entity.Holds others where
  whole row mem := holds.whole row (part.subset mem)
  given row mem := holds.given row (part.subset mem)
  accepted row mem := holds.accepted row (part.subset mem)
  apart := holds.apart.sublist part

/-- A table can hold one more row when that breaks none of its constraints. -/
theorem holds_cons_iff :
    entity.Holds (row :: rows) ↔ row.length = entity.layout.columns.length ∧
      entity.findBroken rows row = none ∧ entity.Holds rows := by
  rw [findBroken, Option.or_eq_none_iff, Option.or_eq_none_iff, findTaken_eq_none_iff]
  constructor
  · intro holds
    obtain ⟨free, apart⟩ := List.pairwise_cons.1 holds.apart
    obtain ⟨length, whole⟩ := List.forall_mem_cons.1 holds.whole
    obtain ⟨present, given⟩ := List.forall_mem_cons.1 holds.given
    obtain ⟨met, accepted⟩ := List.forall_mem_cons.1 holds.accepted
    exact ⟨length, ⟨present, met, free⟩, whole, given, accepted, apart⟩
  · intro more
    obtain ⟨length, ⟨present, met, free⟩, whole, given, accepted, apart⟩ := more
    exact ⟨List.forall_mem_cons.2 ⟨length, whole⟩, List.forall_mem_cons.2 ⟨present, given⟩,
      List.forall_mem_cons.2 ⟨met, accepted⟩, List.pairwise_cons.2 ⟨free, apart⟩⟩

/-- A row somewhere among the others may as well stand in front of them. -/
theorem holds_middle_iff :
    entity.Holds (rows ++ row :: others) ↔ row.length = entity.layout.columns.length ∧
      entity.findBroken (rows ++ others) row = none ∧ entity.Holds (rows ++ others) := by
  rw [← holds_cons_iff]
  exact ⟨fun holds => holds.perm List.perm_middle, fun holds => holds.perm List.perm_middle.symm⟩

/-- No value of a row that a table holds is missing, unless its column may do without. -/
theorem Holds.ne_null {c : Column} (holds : entity.Holds rows) (mem : row ∈ rows)
    (column : c ∈ entity.layout.columns) (needed : c.nullable = false) :
    entity.cellAt c.name row ≠ .null := by
  intro missing
  have placed := cellAt_mem_zip column (holds.whole row mem)
  have none := List.findSome?_eq_none_iff.1 (holds.given row mem) _ placed
  simp [needed, missing] at none

end EntityType

/-! ## §2. Statements. -/

namespace Database

open EntityType

variable {db after : Database} {entity : EntityType} {row : Row}

/-- A database that meets the constraints of its tables: each table can hold its rows, and
the rows they refer to are there. -/
structure MeetsConstraints (db : Database) : Prop where
  holds : ∀ entity : EntityType, entity.Holds (db.rows entity)
  references : ∀ entity, ∀ row ∈ db.rows entity, db.referencesHold entity row = true

theorem MeetsConstraints.intact (valid : db.MeetsConstraints) : db.Intact :=
  ⟨fun entity => (valid.holds entity).whole, valid.references⟩

theorem meetsConstraints_empty : MeetsConstraints {} where
  holds entity := by cases entity <;> exact holds_nil
  references entity := by cases entity <;> nofun

theorem MeetsConstraints.insert (valid : db.MeetsConstraints)
    (whole : row.length = entity.layout.columns.length) (h : db.insert entity row = .ok after) :
    after.MeetsConstraints where
  references := (valid.intact.insert whole h).references
  holds other := by
    obtain ⟨unbroken, -, rfl⟩ := insert_ok_iff.1 h
    rw [rows_add]
    split
    next same =>
      have length : (entity.convert row).length = entity.layout.columns.length := by
        simp [convert, whole]
      rw [same, holds_middle_iff, List.append_nil]
      exact ⟨length, unbroken, valid.holds entity⟩
    next =>
      rw [List.append_nil]
      exact valid.holds other

/-- Rows that are changed one after the other can be held together all along: those that are
done, and those that are not. -/
theorem holds_of_changeRows {chosen : Row → Bool} {change : Row → Row}
    (sized : ∀ row : Row, (change row).length = row.length) {done rest rows : List Row}
    (holds : entity.Holds (done ++ rest))
    (h : changeRows entity chosen change done rest = .ok rows) : entity.Holds rows := by
  induction rest generalizing done with
  | nil =>
    cases h
    rw [List.append_nil] at holds
    exact holds
  | cons row rest ih =>
    rw [changeRows] at h
    split at h
    next =>
      split at h
      next => cases h
      next unbroken =>
        obtain ⟨length, -, others⟩ := holds_middle_iff.1 holds
        refine ih ?_ h
        rw [List.append_assoc]
        exact holds_middle_iff.2 ⟨(sized row).trans length, unbroken, others⟩
    next =>
      refine ih ?_ h
      rw [List.append_assoc]
      exact holds

theorem mem_all (entity : EntityType) : entity ∈ EntityType.all := by
  cases entity <;> decide

/-- A statement that leaves the references in order leaves the other constraints to the table
it is about. -/
theorem MeetsConstraints.settle {rows : List Row} (valid : db.MeetsConstraints)
    (holds : entity.Holds rows) (h : (db.withRows entity rows).settle = .ok after) :
    after.MeetsConstraints := by
  unfold Database.settle at h
  split at h
  next settled =>
    cases h
    refine ⟨fun other => ?_, fun other => ?_⟩
    · rw [rows_withRows]
      split
      next same => exact same ▸ holds
      next => exact valid.holds other
    · exact List.all_eq_true.1 (List.all_eq_true.1 settled other (mem_all other))
  next => cases h

theorem MeetsConstraints.update {column : String} {v : Cell} {s : Selection} {n : Nat}
    (valid : db.MeetsConstraints) (h : db.update entity column v s = .ok (after, n)) :
    after.MeetsConstraints := by
  unfold Database.update at h
  obtain ⟨i, -, h⟩ := exists_of_bind_eq_ok h
  obtain ⟨chosen, -, h⟩ := exists_of_bind_eq_ok h
  obtain ⟨rows, changed, h⟩ := exists_of_bind_eq_ok h
  obtain ⟨settled, done, h⟩ := exists_of_bind_eq_ok h
  cases h
  refine valid.settle ?_ done
  exact holds_of_changeRows (fun _ => List.length_set ..) (valid.holds entity)
    (eq_ok_of_mapError changed)

theorem MeetsConstraints.delete {s : Selection} {n : Nat} (valid : db.MeetsConstraints)
    (h : db.delete entity s = .ok (after, n)) : after.MeetsConstraints := by
  unfold Database.delete at h
  obtain ⟨chosen, -, h⟩ := exists_of_bind_eq_ok h
  obtain ⟨settled, done, h⟩ := exists_of_bind_eq_ok h
  cases h
  exact valid.settle ((valid.holds entity).sublist List.filter_sublist) done

/-! ## §3. Runs. -/

/-- Every row of a plan has all the columns of its table. -/
theorem length_of_mem_rows {plan : InstallPlan} :
    ∀ w ∈ plan.rows, w.2.length = w.1.layout.columns.length :=
  InstallPlan.forall_rows rfl rfl rfl (fun _ _ => rfl) (fun _ _ => rfl) (fun _ _ => rfl)
    (fun _ _ _ _ => rfl) (fun _ _ _ _ => rfl) (fun _ _ => rfl) (fun _ _ _ _ => rfl)

theorem MeetsConstraints.write {writes : List (EntityType × Row)} (valid : db.MeetsConstraints)
    (whole : ∀ w ∈ writes, w.2.length = w.1.layout.columns.length)
    (h : db.write writes = .ok after) : after.MeetsConstraints :=
  write_induction valid (fun mem step before => before.insert (whole _ mem) step) h

/-- What may happen to a database: a plan is carried out, a protocol or a document is
installed, with or without success, or rows are changed or deleted. -/
inductive Change (db : Database) : Database → Prop where
  | apply (plan : InstallPlan) : Change db (db.apply plan).1
  | install (by_ : Provision) (p : ReviewProtocol) (user : String) :
      Change db (db.install by_ p user).1
  | installDocument (by_ : Provision) (document : Json) (user : String) :
      Change db (db.installDocument by_ document user).1
  | update {after : Database} {entity : EntityType} {column : String} {v : Cell} {s : Selection}
      {n : Nat} (done : db.update entity column v s = .ok (after, n)) : Change db after
  | delete {after : Database} {entity : EntityType} {s : Selection} {n : Nat}
      (done : db.delete entity s = .ok (after, n)) : Change db after

/-- The databases that come after a database, whatever is installed, changed or deleted. -/
def Evolves (db after : Database) : Prop := Relation.ReflTransGen Change db after

theorem MeetsConstraints.install (valid : db.MeetsConstraints) (by_ : Provision)
    (p : ReviewProtocol) (user : String) : (db.install by_ p user).1.MeetsConstraints := by
  rcases install_cases db by_ p user with same | written
  · rw [same]
    exact valid
  · exact valid.write length_of_mem_rows written

theorem MeetsConstraints.change (valid : db.MeetsConstraints) (change : Change db after) :
    after.MeetsConstraints := by
  cases change with
  | apply plan =>
    unfold Database.apply
    split
    next written => exact valid.write length_of_mem_rows written
    next => exact valid
  | install by_ p user => exact valid.install by_ p user
  | installDocument by_ document user =>
    unfold Database.installDocument
    split
    next => exact valid
    next p _ => exact valid.install by_ p user
  | update done => exact valid.update done
  | delete done => exact valid.delete done

/-- **Whatever is installed, changed or deleted, the constraints are met.** -/
theorem MeetsConstraints.evolves (valid : db.MeetsConstraints) (run : Evolves db after) :
    after.MeetsConstraints := by
  induction run with
  | refl => exact valid
  | tail _ change ih => exact ih.change change

end Database

end LiteratureReview
