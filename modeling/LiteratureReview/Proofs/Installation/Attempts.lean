/-
  LiteratureReview.Proofs.Installation.Attempts
  ─────────────────────────────────────────────
  Everything that installs: documents, protocols, and plans made before.

  A plan may be carried out long after it was made, when the label it claims
  has been taken by somebody else.  So a database may come about by any
  sequence of attempts, whether they succeed or not, and of closing and
  opening its file (`ReachableBy`).  What a transaction preserves, each of
  these events preserves (`Event.preserves`).

    • `install_or_apply` — an attempt installs a protocol or applies a plan,
    • `attempt_cases` — an attempt is one transaction, or nothing,
    • `attempt_of_taken`, `attempt_of_free` — what comes of it,
    • `ReachableBy.sound` — every database on the way is sound.
-/
import LiteratureReview.Proofs.Installation.Transaction

namespace LiteratureReview

/-! ## §1. Attempts. -/

/-- What somebody tries. -/
inductive Attempt where
  /-- Validate a document and install its protocol. -/
  | document (by_ : Provision) (document : Json) (user : String)
  /-- Install a protocol. -/
  | protocol (by_ : Provision) (p : ReviewProtocol) (user : String)
  /-- Carry a plan out. -/
  | plan (plan : InstallPlan)

/-- Try it. -/
def Database.attempt (db : Database) : Attempt → Database × Except InstallError InstallResult
  | .document by_ document user => db.installDocument by_ document user
  | .protocol by_ p user => db.install by_ p user
  | .plan plan => db.apply plan

/-- The plan that an attempt carries out if it goes well, made of some kind of protocol, at
some time of a clock. -/
inductive Attempt.Offers (kind : ReviewProtocol → Prop) : Attempt → InstallPlan → Prop where
  | document {by_ : Provision} {document : Json} {user : String} {p : ReviewProtocol}
      {plan : InstallPlan} (clock : by_.now.IsClock) (proper : document.IsProper)
      (accepted : Validator.validate document = .ok p) (fit : kind p)
      (planned : InstallPlan.build by_ p user = .ok plan) :
      Offers kind (.document by_ document user) plan
  | protocol {by_ : Provision} {p : ReviewProtocol} {user : String} {plan : InstallPlan}
      (clock : by_.now.IsClock) (fit : kind p)
      (planned : InstallPlan.build by_ p user = .ok plan) :
      Offers kind (.protocol by_ p user) plan
  | plan {by_ : Provision} {p : ReviewProtocol} {user : String} {plan : InstallPlan}
      (clock : by_.now.IsClock) (fit : kind p)
      (planned : InstallPlan.build by_ p user = .ok plan) : Offers kind (.plan plan) plan

variable {kind : ReviewProtocol → Prop} {a : Attempt} {plan : InstallPlan}

/-- A plan that was made of some kind of protocol, at some time of a clock. -/
def InstallPlan.IsMadeOf (kind : ReviewProtocol → Prop) (plan : InstallPlan) : Prop :=
  ∃ by_ p user, by_.now.IsClock ∧ kind p ∧ plan = .of by_ p user

theorem Attempt.Offers.isMadeOf (offers : a.Offers kind plan) : plan.IsMadeOf kind := by
  cases offers with
  | document clock _ _ fit planned =>
    exact ⟨_, _, _, clock, fit, InstallPlan.eq_of_build planned⟩
  | protocol clock fit planned => exact ⟨_, _, _, clock, fit, InstallPlan.eq_of_build planned⟩
  | plan clock fit planned => exact ⟨_, _, _, clock, fit, InstallPlan.eq_of_build planned⟩

/-- Whoever offers a plan makes it in the attempt, of a protocol, or has made it before. -/
theorem Attempt.Offers.install_or_apply (offers : a.Offers kind plan) :
    (∃ by_ p user, plan = .of by_ p user ∧ ∀ db : Database, db.attempt a = db.install by_ p user) ∨
      ∀ db : Database, db.attempt a = db.apply plan := by
  cases offers with
  | document _ _ accepted _ planned =>
    refine .inl ⟨_, _, _, InstallPlan.eq_of_build planned, fun db => ?_⟩
    rw [Database.attempt, Database.installDocument, accepted]
  | protocol _ _ planned => exact .inl ⟨_, _, _, InstallPlan.eq_of_build planned, fun _ => rfl⟩
  | plan => exact .inr fun _ => rfl

namespace Database

variable {db after : Database}

theorem apply_cases (db : Database) (plan : InstallPlan) :
    (db.apply plan).1 = db ∨ db.write plan.rows = .ok (db.apply plan).1 := by
  unfold apply
  split
  next after written => exact .inr written
  next => exact .inl rfl

/-- An attempt is one transaction, or nothing happens. -/
theorem attempt_cases (db : Database) (offers : a.Offers kind plan) :
    (db.attempt a).1 = db ∨ db.write plan.rows = .ok (db.attempt a).1 := by
  rcases offers.install_or_apply with ⟨by_, p, user, rfl, same⟩ | same
  · rw [same db]
    exact install_cases db by_ p user
  · rw [same db]
    exact apply_cases db plan

/-- With a label that is taken, an attempt ends in a conflict: told by looking it up, or by
the transaction. -/
theorem attempt_of_taken (sound : db.Sound) (offers : a.Offers kind plan)
    (taken : db.HasLabel plan.label) :
    db.attempt a = (db, .error (.conflict plan.label)) := by
  rcases offers.install_or_apply with ⟨by_, p, user, rfl, same⟩ | same
  · rw [same db]
    exact install_of_label_taken sound taken
  · rw [same db]
    exact apply_of_label_taken taken

/-- With a label that is free, an attempt carries its plan out. -/
theorem attempt_of_free (offers : a.Offers kind plan) (free : ¬db.HasLabel plan.label) :
    db.attempt a = db.apply plan := by
  rcases offers.install_or_apply with ⟨by_, p, user, rfl, same⟩ | same
  · -- looking the label up finds nothing
    rw [same db]
    exact install_eq_apply free
  · exact same db

/-! ## §2. Events. -/

/-- What may happen to a database: something is tried with some kind of protocol, a
document is refused, or the file is closed and opened again. -/
inductive Event (kind : ReviewProtocol → Prop) (db : Database) : Database → Prop where
  | attempt {a : Attempt} {plan : InstallPlan} (offers : a.Offers kind plan) :
      Event kind db (db.attempt a).1
  | refused {by_ : Provision} {document : Json} {user : String} {errors : ValidationErrors}
      (refusal : Validator.validate document = .error errors) :
      Event kind db (db.attempt (.document by_ document user)).1
  | reopen {after : Database} (opened : ofText db.toText = .ok after) : Event kind db after

/-- The databases that come about from an empty one. -/
def ReachableBy (kind : ReviewProtocol → Prop) (db : Database) : Prop :=
  Relation.ReflTransGen (Event kind) {} db

/-- What holds of a database, and is preserved when a plan is carried out, holds after an
event. -/
theorem Event.preserves {P : Database → Prop} (storable : db.IsStorable) (start : P db)
    (write : ∀ {after : Database} {plan : InstallPlan}, plan.IsMadeOf kind →
      db.write plan.rows = .ok after → P after)
    (event : Event kind db after) : P after := by
  cases event with
  | attempt offers =>
    -- one transaction, or nothing at all
    rcases attempt_cases db offers with same | written
    · rw [same]
      exact start
    · exact write offers.isMadeOf written
  | @refused by_ document user errors refusal =>
    have same : (db.attempt (.document by_ document user)).1 = db := by
      rw [Database.attempt, installDocument, refusal]
    rw [same]
    exact start
  | reopen opened =>
    -- what is read from the file is what was written to it
    rw [ofText_toText storable] at opened
    cases opened
    exact start

theorem Sound.write_of_isMadeOf (finite : ∀ p, kind p → p.HasFiniteScores) (sound : db.Sound)
    (made : plan.IsMadeOf kind) (h : db.write plan.rows = .ok after) : after.Sound := by
  obtain ⟨by_, p, user, clock, fit, rfl⟩ := made
  exact sound.write (InstallPlan.hasFiniteScores_of (finite p fit)) clock h

theorem Sound.event (finite : ∀ p, kind p → p.HasFiniteScores) (sound : db.Sound)
    (event : Event kind db after) : after.Sound :=
  event.preserves sound.storable sound fun made written =>
    sound.write_of_isMadeOf finite made written

/-- Whatever a protocol or a document leaves behind comes about. -/
theorem Reachable.reachableBy (reachable : db.Reachable) :
    db.ReachableBy ReviewProtocol.IsDecoded := by
  have steps : Relation.ReflTransGen Step {} db := reachable
  refine Relation.ReflTransGen.mono (fun before after step => ?_) _ _ steps
  cases step with
  | @install by_ p user clock decoded =>
    exact .attempt (.protocol clock decoded (InstallPlan.build_eq by_ p user))
  | @installDocument by_ document user clock proper =>
    cases verdict : Validator.validate document with
    | error errors => exact .refused verdict
    | ok p =>
      -- the validator decodes the document itself
      have decoded : p.IsDecoded :=
        ⟨_, _, proper.hasProperNumbers, (Validator.validate_eq_ok_iff.1 verdict).2⟩
      exact .attempt (.document clock proper verdict decoded (InstallPlan.build_eq by_ p user))
  | reopen opened => exact .reopen opened

/-- **Every database that comes about is sound.** -/
theorem ReachableBy.sound (finite : ∀ p, kind p → p.HasFiniteScores)
    (reachable : db.ReachableBy kind) : db.Sound := by
  induction reachable with
  | refl => exact sound_empty
  | tail _ event ih => exact ih.event finite event

end Database

end LiteratureReview
