/-
  LiteratureReview.Proofs.Installation.Reachable
  ──────────────────────────────────────────────
  The databases that installing leaves behind.

  Starting from an empty database, protocols are installed, with or without
  success, and the file is closed and opened again (`Reachable`).  Every
  database on the way is sound: the rows that its rows refer to are there, it
  can be kept in a file, and its projects can be read (`Reachable.sound`).
  One step preserves this (`Sound.step`), and so does a run (`Sound.leadsTo`).
-/
import LiteratureReview.Proofs.Installation.Rows
import LiteratureReview.Proofs.Protocol.Decoded
import LiteratureReview.Proofs.Store.File
import LiteratureReview.Proofs.Store.Records
import LiteratureReview.Proofs.Validation.Verdict
import Mathlib.Logic.Relation

namespace LiteratureReview

open Decimal

/-! ## §1. Rows that a file can hold. -/

namespace Cell

@[simp] theorem isStorable_text (s : String) : (Cell.text s).IsStorable := rfl

@[simp] theorem isStorable_ofOption (o : Option String) : (Cell.ofOption o).IsStorable := by
  cases o <;> rfl

@[simp] theorem isStorable_ofBool (b : Bool) : (Cell.ofBool b).IsStorable := by
  cases b with
  | false => exact (by decide : (Number.int 0).isProper = true)
  | true => exact (by decide : (Number.int 1).isProper = true)

@[simp] theorem isStorable_ofU32 (n : UInt32) : (Cell.ofU32 n).IsStorable := by
  have low : (twoTo 63 : Int) = 9223372036854775808 := by decide
  have high : (twoTo 64 : Int) = 18446744073709551616 := by decide
  have small := n.toNat_lt
  show (Number.int n.toNat).isProper = true
  simp only [Number.isProper, low, high, Bool.and_eq_true, decide_eq_true_eq]
  omega

@[simp] theorem isStorable_ofInstant (t : Time.Instant) : (Cell.ofInstant t).IsStorable := rfl

@[simp] theorem isStorable_real {x : Double} : (Cell.real x).IsStorable ↔ x.isFinite = true :=
  Iff.rfl

theorem IsStorable.settled {c : Cell} (h : c.IsStorable) : c.settled.IsStorable := by
  cases c with
  | real x =>
    show x.unsignedZero.isFinite = true
    unfold Double.unsignedZero
    split
    · decide
    · exact h
  | _ => exact h

end Cell

/-- A list of rows whose values a file can hold. -/
def StorableRows (writes : List (EntityType × Row)) : Prop :=
  ∀ w ∈ writes, ∀ c ∈ w.2, Cell.IsStorable c

namespace InstallPlan

variable {plan : InstallPlan}

/-- The reals of a plan are finite. -/
def HasFiniteScores (plan : InstallPlan) : Prop :=
  ∀ q, plan.quality = some q → q.template.minScore.isFinite = true ∧
    ∀ r ∈ q.options, r.score.isFinite = true

theorem storable_rows (finite : plan.HasFiniteScores) : StorableRows plan.rows := by
  refine forall_rows ?_ ?_ ?_ ?_ ?_ ?_ ?_ ?_ ?_ ?_
  · simp [Project.toRow]
  · simp [ProjectMember.toRow]
  · simp [ProjectConfig.toRow]
  · simp [ExclusionCriterion.toRow]
  · simp [ScreeningPhase.toRow]
  · intro q planned
    simp [QaTemplate.toRow, (finite q planned).1]
  · simp [QaQuestion.toRow]
  · intro q planned r mem
    simp [QaOption.toRow, (finite q planned).2 r mem]
  · simp [ExtractionForm.toRow]
  · simp [ExtractionField.toRow]

/-- The reals of a plan are those of its protocol. -/
theorem hasFiniteScores_of {by_ : Provision} {p : ReviewProtocol} {user : String}
    (finite : p.HasFiniteScores) : (of by_ p user).HasFiniteScores := by
  intro q planned
  obtain ⟨section_, quality, rfl⟩ := Option.map_eq_some_iff.1 planned
  obtain ⟨least, each⟩ := finite section_ quality
  refine ⟨least, fun r mem => ?_⟩
  obtain ⟨group, among, inside⟩ := List.mem_flatten.1 mem
  obtain ⟨i, _, rfl⟩ := List.mem_mapIdx.1 among
  obtain ⟨j, there, rfl⟩ := List.mem_mapIdx.1 inside
  exact each _ (List.getElem_mem there)

end InstallPlan

/-- A plan has one project. -/
theorem InstallPlan.project_of_mem_rows {plan : InstallPlan} {row : Row}
    (mem : (EntityType.project, row) ∈ plan.rows) : row = plan.project.toRow := by
  have only : ∀ w ∈ plan.rows, w.1 = .project → w.2 = plan.project.toRow :=
    forall_rows (fun _ => rfl) nofun nofun (fun _ _ => nofun) (fun _ _ => nofun)
      (fun _ _ => nofun) (fun _ _ _ _ => nofun) (fun _ _ _ _ => nofun) (fun _ _ => nofun)
      (fun _ _ _ _ => nofun)
  exact only _ mem rfl

/-! ## §2. Sound databases. -/

namespace Database

variable {db after : Database} {writes : List (EntityType × Row)} {plan : InstallPlan}

/-- A database whose references hold, that can be kept in a file, and whose
projects can be read. -/
structure Sound (db : Database) : Prop where
  intact : db.Intact
  storable : db.IsStorable
  readable : ∀ row ∈ db.projects, ∃ p, Project.ofRow row = .ok p

theorem sound_empty : Sound {} where
  intact := ⟨by intro entity; cases entity <;> nofun, by intro entity; cases entity <;> nofun⟩
  storable := by intro entity; cases entity <;> nofun
  readable := nofun

/-- References hold on when rows are added. -/
theorem referencesHold_add {entity other : EntityType} {row r : Row}
    (h : db.referencesHold other r = true) : (db.add entity row).referencesHold other r = true := by
  rw [EntityType.referencesHold_iff] at h ⊢
  exact fun ref mem => (h ref mem).imp_right hasId_add

theorem Intact.insert {entity : EntityType} {row : Row} (intact : db.Intact)
    (whole : row.length = entity.layout.columns.length) (h : db.insert entity row = .ok after) :
    after.Intact := by
  obtain ⟨_, holds, rfl⟩ := insert_ok_iff.1 h
  constructor
  · intro other r mem
    rw [rows_add, List.mem_append] at mem
    rcases mem with old | new
    · exact intact.whole other r old
    · split at new
      next same =>
        rw [List.mem_singleton.1 new, same]
        simp [EntityType.convert, whole]
      next => cases new
  · intro other r mem
    rw [rows_add, List.mem_append] at mem
    rcases mem with old | new
    · exact referencesHold_add (intact.references other r old)
    · split at new
      next same =>
        rw [List.mem_singleton.1 new, same]
        exact holds
      next => cases new

/-- What one row preserves, a transaction preserves. -/
theorem write_induction {P : Database → Prop} (start : P db)
    (step : ∀ {before next : Database} {w : EntityType × Row}, w ∈ writes →
      before.insert w.1 w.2 = .ok next → P before → P next)
    (h : db.write writes = .ok after) : P after := by
  induction writes generalizing db with
  | nil =>
    cases h
    exact start
  | cons w rest ih =>
    obtain ⟨next, first, behind⟩ := write_cons_ok h
    refine ih (step List.mem_cons_self first start) ?_ behind
    exact fun mem => step (List.mem_cons_of_mem _ mem)

theorem Intact.write (intact : db.Intact)
    (whole : ∀ w ∈ writes, w.2.length = w.1.layout.columns.length)
    (h : db.write writes = .ok after) : after.Intact :=
  write_induction intact (fun mem step before => before.insert (whole _ mem) step) h

/-- Every row of a transaction that goes well has been added. -/
theorem insert_of_write {w : EntityType × Row} (mem : w ∈ writes)
    (h : db.write writes = .ok after) :
    ∃ before next : Database, before.insert w.1 w.2 = .ok next := by
  induction writes generalizing db with
  | nil => cases mem
  | cons first rest ih =>
    obtain ⟨next, step, behind⟩ := write_cons_ok h
    rcases List.mem_cons.1 mem with rfl | later
    · exact ⟨db, next, step⟩
    · exact ih later behind

/-- A plan that has been carried out is within bounds. -/
theorem withinBounds_of_write (h : db.write plan.rows = .ok after) : plan.config.WithinBounds := by
  have mem : (EntityType.projectConfig, plan.config.toRow) ∈ plan.rows := by
    simp [InstallPlan.rows]
  obtain ⟨before, next, step⟩ := insert_of_write mem h
  exact ProjectConfig.withinBounds_of_insert step

/-- The rows of a database after a plan has been carried out. -/
theorem mem_rows_of_write {entity : EntityType} {row : Row} (h : db.write plan.rows = .ok after)
    (mem : row ∈ after.rows entity) :
    row ∈ db.rows entity ∨
      ∃ given, (entity, given) ∈ plan.rows ∧ row = given.map Cell.settled := by
  rw [write_eq_append h, rows_append, List.mem_append] at mem
  refine mem.imp_right fun new => ?_
  obtain ⟨⟨other, given⟩, there, rfl⟩ := List.mem_map.1 new
  obtain ⟨planned, same⟩ := List.mem_filter.1 there
  obtain rfl : other = entity := by simpa using same
  have admits := InstallPlan.admits_rows (withinBounds_of_write h) _ planned
  exact ⟨given, planned, EntityType.convert_of_admits admits⟩

theorem Sound.write (sound : db.Sound) (finite : plan.HasFiniteScores)
    (clock : plan.project.createdAt.IsClock) (h : db.write plan.rows = .ok after) :
    after.Sound := by
  have admits := InstallPlan.admits_rows (withinBounds_of_write h)
  refine {
    intact := sound.intact.write (fun w mem => (admits w mem).length_eq.symm) h
    storable := ?_
    readable := ?_ }
  · intro entity row mem c inside
    rcases mem_rows_of_write h mem with old | ⟨given, planned, rfl⟩
    · exact sound.storable entity row old c inside
    · obtain ⟨d, there, rfl⟩ := List.mem_map.1 inside
      exact (InstallPlan.storable_rows finite _ planned d there).settled
  · intro row mem
    have stored : row ∈ after.rows .project := mem
    rcases mem_rows_of_write h stored with old | ⟨given, planned, rfl⟩
    · exact sound.readable row old
    · obtain rfl := InstallPlan.project_of_mem_rows planned
      rw [Project.settled_toRow]
      exact plan.project.exists_ofRow_toRow clock

/-! ## §3. Reachable databases. -/

/-- What may happen to a database: a protocol is installed, with or without success, or
its file is closed and opened again. -/
inductive Step (db : Database) : Database → Prop where
  | install {by_ : Provision} {p : ReviewProtocol} {user : String} (clock : by_.now.IsClock)
      (decoded : p.IsDecoded) : Step db (db.install by_ p user).1
  | installDocument {by_ : Provision} {document : Json} {user : String}
      (clock : by_.now.IsClock) (proper : document.IsProper) :
      Step db (db.installDocument by_ document user).1
  | reopen {after : Database} (opened : ofText db.toText = .ok after) : Step db after

/-- The databases that come after a database, whatever happens to it. -/
def LeadsTo (db after : Database) : Prop := Relation.ReflTransGen Step db after

/-- The databases that installing leaves behind. -/
def Reachable (db : Database) : Prop := LeadsTo {} db

theorem Reachable.empty : Reachable {} := .refl

/-- A protocol is installed in one transaction, or not at all. -/
theorem install_cases (db : Database) (by_ : Provision) (p : ReviewProtocol) (user : String) :
    (db.install by_ p user).1 = db ∨
      db.write (InstallPlan.of by_ p user).rows = .ok (db.install by_ p user).1 := by
  unfold Database.install
  split
  next => exact .inl rfl
  next => exact .inl rfl
  next =>
    rw [InstallPlan.build_eq]
    show (db.apply (InstallPlan.of by_ p user)).1 = db ∨
      db.write _ = .ok (db.apply (InstallPlan.of by_ p user)).1
    unfold apply
    split
    next after h => exact .inr h
    next => exact .inl rfl

/-- What holds of a database, and is preserved when a plan is carried out, holds after
one step. -/
theorem Step.preserves {P : Database → Prop} (storable : db.IsStorable) (start : P db)
    (write : ∀ {after : Database} {by_ : Provision} {p : ReviewProtocol} {user : String},
      by_.now.IsClock → p.HasFiniteScores →
        db.write (InstallPlan.of by_ p user).rows = .ok after → P after)
    (step : Step db after) : P after := by
  cases step with
  | @install by_ p user clock decoded =>
    rcases install_cases db by_ p user with same | written
    · rw [same]
      exact start
    · exact write clock decoded.hasFiniteScores written
  | @installDocument by_ document user clock proper =>
    unfold Database.installDocument
    cases verdict : Validator.validate document with
    | error e => exact start
    | ok p =>
      have read := (Validator.validate_eq_ok_iff.1 verdict).2
      have decoded : p.IsDecoded := ⟨_, _, proper.hasProperNumbers, read⟩
      show P (db.install by_ p user).1
      rcases install_cases db by_ p user with same | written
      · rw [same]
        exact start
      · exact write clock decoded.hasFiniteScores written
  | reopen opened =>
    rw [ofText_toText storable] at opened
    cases opened
    exact start

theorem Sound.step (sound : db.Sound) (step : Step db after) : after.Sound :=
  step.preserves sound.storable sound fun clock finite written =>
    sound.write (InstallPlan.hasFiniteScores_of finite) clock written

/-- **Every database after a sound one is sound.** -/
theorem Sound.leadsTo (sound : db.Sound) (leads : LeadsTo db after) : after.Sound := by
  induction leads with
  | refl => exact sound
  | tail _ step ih => exact ih.step step

/-- **Every reachable database is sound.** -/
theorem Reachable.sound (reachable : db.Reachable) : db.Sound :=
  sound_empty.leadsTo reachable

end Database

end LiteratureReview
