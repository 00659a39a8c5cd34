/-
  LiteratureReview.Proofs.Installation.Race
  ─────────────────────────────────────────
  Several installers at one database.

  Each has made a plan, at whatever time; now the plans are carried out one
  after the other, in whatever order, and documents are installed in between.
  Of those who claim one label, the first gets it, and the others are told
  that it is taken.  So the database has the rows of the winners behind its
  own (`winners`), and which they are is a matter of labels alone.

    • `attempt_of_bid` — what comes of one bid,
    • `rows_attemptAll`, `outcome_attemptAll` — what comes of all of them,
    • `race_outcome` — the same, and that the order makes no difference when all
      claim labels of their own.
-/
import LiteratureReview.Proofs.Installation.Answers
import LiteratureReview.Proofs.Installation.Attempts

namespace LiteratureReview

open Database EntityType

/-! ## §1. Bids. -/

/-- A protocol of a document that the validator accepts, with lists that there are
positions for. -/
def ReviewProtocol.IsAccepted (p : ReviewProtocol) : Prop :=
  (∃ document : Json, document.IsProper ∧ Validator.validate document = .ok p) ∧ p.HasPositions

/-- An attempt with an accepted protocol, and its plan. -/
structure Bid where
  attempt : Attempt
  plan : InstallPlan
  offers : attempt.Offers ReviewProtocol.IsAccepted plan

namespace Database

/-- Make some attempts, one after the other. -/
def attemptAll (db : Database) : List Attempt → Database × List (Except InstallError InstallResult)
  | [] => (db, [])
  | a :: rest =>
    let (after, outcome) := db.attempt a
    let (last, outcomes) := after.attemptAll rest
    (last, outcome :: outcomes)

/-- The ids of some plans differ from each other and from all ids in the database. -/
structure HaveFreshIds (db : Database) (plans : List InstallPlan) : Prop where
  distinct : (plans.flatMap fun plan => plan.rows.map identify).Nodup
  unused : ∀ plan ∈ plans, ∀ ref ∈ plan.rows.map identify, db.hasId ref.1 ref.2 = false

variable {db after : Database} {plan : InstallPlan} {plans : List InstallPlan} {bid : Bid}

theorem HaveFreshIds.head (fresh : db.HaveFreshIds (plan :: plans)) : plan.HasFreshIds db where
  distinct := by
    have all := fresh.distinct
    rw [List.flatMap_cons] at all
    exact (List.nodup_append.1 all).1
  unused := fresh.unused plan List.mem_cons_self

/-- When a plan comes to nothing, the other plans have fresh ids as before. -/
theorem HaveFreshIds.tail (fresh : db.HaveFreshIds (plan :: plans)) : db.HaveFreshIds plans where
  distinct := by
    have all := fresh.distinct
    rw [List.flatMap_cons] at all
    exact (List.nodup_append.1 all).2.1
  unused other mem := fresh.unused other (List.mem_cons_of_mem _ mem)

/-- The ids of a database after a plan are those before, and those of the plan. -/
theorem hasId_of_write {entity : EntityType} {s : String} (coherent : plan.IsCoherent)
    (h : db.write plan.rows = .ok after) (there : after.hasId entity (.text s) = true) :
    db.hasId entity (.text s) = true ∨ (entity, .text s) ∈ plan.rows.map identify := by
  obtain ⟨row, mem, id⟩ := hasId_iff.1 there
  rw [rows_of_write h, List.mem_append] at mem
  rcases mem with old | new
  · exact .inl (hasId_iff.2 ⟨row, old, id⟩)
  · have admits := InstallPlan.admits_rows (withinBounds_of_write h)
    exact .inr (InstallPlan.mem_identify_of_mem_kept coherent (.inl ⟨rfl, rfl⟩) admits new id)

/-- When a plan is carried out, the ids of the other plans are still fresh. -/
theorem HaveFreshIds.tail_of_write (fresh : db.HaveFreshIds (plan :: plans))
    (coherent : plan.IsCoherent) (h : db.write plan.rows = .ok after) :
    after.HaveFreshIds plans where
  distinct := fresh.tail.distinct
  unused other mem ref there := by
    have all := fresh.distinct
    rw [List.flatMap_cons] at all
    obtain ⟨w, planned, named⟩ := List.mem_map.1 there
    obtain ⟨s, id⟩ := InstallPlan.named_rows w planned
    have text : ref = (w.1, .text s) := by rw [← named, identify, id]
    rw [Bool.eq_false_iff]
    intro taken
    rw [text] at taken
    rcases hasId_of_write coherent h taken with old | new
    · have unused := fresh.tail.unused other mem ref there
      rw [text, old] at unused
      cases unused
    · -- an id of both plans
      refine (List.nodup_append.1 all).2.2 _ new _ ?_ rfl
      exact text ▸ List.mem_flatMap.2 ⟨other, mem, there⟩

theorem HaveFreshIds.perm {others : List InstallPlan} (fresh : db.HaveFreshIds plans)
    (same : others.Perm plans) : db.HaveFreshIds others where
  distinct := (same.flatMap_right _).nodup_iff.2 fresh.distinct
  unused other mem := fresh.unused other (same.mem_iff.1 mem)

/-! ## §2. One bid. -/

/-- The plan of a bid is within bounds, its reals are finite, and its rows fit together. -/
theorem facts_of_bid (bid : Bid) :
    bid.plan.IsMadeOf (fun p => p.IsDecoded ∧ p.WithinBounds ∧ p.HasPositions) := by
  obtain ⟨by_, p, user, clock, ⟨⟨document, proper, accepted⟩, few⟩, made⟩ := bid.offers.isMadeOf
  have read := (Validator.validate_eq_ok_iff.1 accepted).2
  have bounds := ReviewProtocol.withinBounds_of_isProtocol proper
    (Validator.isProtocol_of_validate proper accepted) read
  exact ⟨by_, p, user, clock, ⟨⟨_, _, proper.hasProperNumbers, read⟩, bounds, few⟩, made⟩

theorem coherent_of_bid (bid : Bid) : bid.plan.IsCoherent := by
  obtain ⟨_, _, _, _, _, made⟩ := facts_of_bid bid
  exact made ▸ InstallPlan.isCoherent_of

theorem Sound.write_of_bid (sound : db.Sound) (h : db.write bid.plan.rows = .ok after) :
    after.Sound :=
  sound.write_of_isMadeOf (fun _ fit => fit.1.hasFiniteScores) (facts_of_bid bid) h

/-- **A bid for a free label is carried out.** -/
theorem write_of_bid (sound : db.Sound) (fresh : bid.plan.HasFreshIds db)
    (free : ¬db.HasLabel bid.plan.label) : ∃ after, db.write bid.plan.rows = .ok after := by
  obtain ⟨by_, p, user, _, ⟨_, bounds, few⟩, made⟩ := facts_of_bid bid
  rw [made] at fresh free ⊢
  have numbered := InstallPlan.isNumbered_of few.ascends
    (InstallPlan.questionIds_nodup fresh.distinct)
  exact ⟨_, InstallPlan.write_of_fresh sound.intact InstallPlan.isCoherent_of numbered
    (Plan.withinBounds_config_iff.2 bounds) fresh free⟩

/-- **What comes of one bid.**  With a label that is taken it is a conflict, and nothing
happens; otherwise the plan is carried out. -/
theorem attempt_of_bid (sound : db.Sound) (fresh : bid.plan.HasFreshIds db) :
    (bid.plan.label ∈ db.labels ∧
      db.attempt bid.attempt = (db, .error (.conflict bid.plan.label))) ∨
    (bid.plan.label ∉ db.labels ∧ ∃ after, db.write bid.plan.rows = .ok after ∧
      db.attempt bid.attempt = (after, .ok bid.plan.result)) := by
  by_cases taken : db.HasLabel bid.plan.label
  · exact .inl ⟨mem_labels_iff.2 taken, attempt_of_taken sound bid.offers taken⟩
  · obtain ⟨after, written⟩ := write_of_bid sound fresh taken
    refine .inr ⟨mt mem_labels_iff.1 taken, after, written, ?_⟩
    rw [attempt_of_free bid.offers taken, apply_of_write written]

/-! ## §3. All bids. -/

/-- The plans that come first with their label, among those with a label that is free. -/
def winners (taken : List String) : List InstallPlan → List InstallPlan
  | [] => []
  | plan :: rest =>
    if plan.label ∈ taken then winners taken rest
    else plan :: winners (taken ++ [plan.label]) rest

/-- **The database has the rows of the winners behind its own.** -/
theorem rows_attemptAll {bids : List Bid} (sound : db.Sound)
    (fresh : db.HaveFreshIds (bids.map (·.plan))) (entity : EntityType) :
    (db.attemptAll (bids.map (·.attempt))).1.rows entity =
      db.rows entity ++
        (winners db.labels (bids.map (·.plan))).flatMap fun plan => plan.kept entity := by
  -- the other bids meet the database that the first one leaves behind
  induction bids generalizing db with
  | nil => simp [attemptAll, winners]
  | cons bid rest ih =>
    rw [List.map_cons] at fresh
    rw [List.map_cons, List.map_cons, winners]
    rcases attempt_of_bid sound fresh.head with ⟨taken, failed⟩ | ⟨free, after, written, done⟩
    · rw [if_pos taken, attemptAll, failed]
      exact ih sound fresh.tail
    · have next := ih (sound.write_of_bid written)
        (fresh.tail_of_write (coherent_of_bid bid) written)
      rw [labels_of_write written, rows_of_write written] at next
      rw [if_neg free, attemptAll, done, List.flatMap_cons, ← List.append_assoc]
      exact next

/-- **Every bid is told a conflict when its label was taken, or is that of a bid in front
of it; the others are told that they are done.** -/
theorem outcome_attemptAll {bids : List Bid} (sound : db.Sound)
    (fresh : db.HaveFreshIds (bids.map (·.plan))) {i : Nat} {plan : InstallPlan}
    (there : (bids.map (·.plan))[i]? = some plan) :
    (db.attemptAll (bids.map (·.attempt))).2[i]? = some
      (if plan.label ∈ db.labels ∨ plan.label ∈ ((bids.map (·.plan)).take i).map (·.label)
        then .error (.conflict plan.label) else .ok plan.result) := by
  induction bids generalizing db i with
  | nil => cases there
  | cons bid rest ih =>
    rw [List.map_cons] at fresh there
    rw [List.map_cons, List.map_cons, attemptAll]
    rcases attempt_of_bid sound fresh.head with ⟨taken, failed⟩ | ⟨free, after, written, done⟩
    · rw [failed]
      cases i with
      | zero =>
        cases there
        simp [taken]
      | succ i =>
        -- the label of the first bid is taken anyway
        have next := ih sound fresh.tail there
        have same : plan.label = bid.plan.label → plan.label ∈ db.labels := fun e => e ▸ taken
        show (db.attemptAll _).2[i]? = _
        rw [next]
        refine congrArg some (if_congr ?_ rfl rfl)
        rw [List.take_succ_cons, List.map_cons, List.mem_cons]
        tauto
    · rw [done]
      cases i with
      | zero =>
        cases there
        simp [free]
      | succ i =>
        have next := ih (sound.write_of_bid written)
          (fresh.tail_of_write (coherent_of_bid bid) written) there
        show (after.attemptAll _).2[i]? = _
        rw [next]
        refine congrArg some (if_congr ?_ rfl rfl)
        rw [labels_of_write written, List.take_succ_cons, List.map_cons, List.mem_cons,
          List.mem_append, List.mem_singleton]
        tauto

/-! ## §4. Winners. -/

/-- A plan keeps its label when it is the first one, or when it keeps it against the first
one too. -/
theorem exists_free_cons_iff {first : InstallPlan} {rest : List InstallPlan}
    {taken : List String} :
    (∃ i, (first :: rest)[i]? = some plan ∧ plan.label ∉ taken ∧
        plan.label ∉ ((first :: rest).take i).map (·.label)) ↔
      (first = plan ∧ plan.label ∉ taken) ∨
        ∃ i, rest[i]? = some plan ∧ plan.label ∉ taken ++ [first.label] ∧
          plan.label ∉ (rest.take i).map (·.label) := by
  constructor
  · rintro ⟨i, there, free, behind⟩
    cases i with
    | zero => exact .inl ⟨Option.some.inj there, free⟩
    | succ i =>
      rw [List.take_succ_cons, List.map_cons, List.mem_cons, not_or] at behind
      exact .inr ⟨i, there, by simp [free, behind.1], behind.2⟩
  · rintro (⟨rfl, free⟩ | ⟨i, there, free, behind⟩)
    · exact ⟨0, rfl, free, List.not_mem_nil⟩
    · rw [List.mem_append, List.mem_singleton, not_or] at free
      refine ⟨i + 1, there, free.1, ?_⟩
      rw [List.take_succ_cons, List.map_cons, List.mem_cons, not_or]
      exact ⟨free.2, behind⟩

/-- Winners are the plans that no plan in front of them, and no project, takes the label
from. -/
theorem mem_winners_iff {taken : List String} :
    plan ∈ winners taken plans ↔
      ∃ i, plans[i]? = some plan ∧ plan.label ∉ taken ∧
        plan.label ∉ (plans.take i).map (·.label) := by
  induction plans generalizing taken with
  | nil => simp [winners]
  | cons first rest ih =>
    rw [exists_free_cons_iff, winners]
    by_cases known : first.label ∈ taken
    · rw [if_pos known, ih]
      constructor
      · rintro ⟨i, there, free, behind⟩
        have other : plan.label ≠ first.label := fun same => free (same ▸ known)
        exact .inr ⟨i, there, by simp [free, other], behind⟩
      · rintro (⟨rfl, free⟩ | ⟨i, there, free, behind⟩)
        · exact absurd known free
        · rw [List.mem_append, not_or] at free
          exact ⟨i, there, free.1, behind⟩
    · rw [if_neg known, List.mem_cons, ih]
      refine or_congr ⟨?_, ?_⟩ Iff.rfl
      · rintro rfl
        exact ⟨rfl, known⟩
      · rintro ⟨rfl, _⟩
        rfl

/-- No two winners claim one label. -/
theorem labels_winners_nodup (taken : List String) (plans : List InstallPlan) :
    ((winners taken plans).map (·.label)).Nodup := by
  induction plans generalizing taken with
  | nil => exact List.nodup_nil
  | cons first rest ih =>
    rw [winners]
    split
    next => exact ih taken
    next =>
      rw [List.map_cons]
      refine List.nodup_cons.2 ⟨fun again => ?_, ih _⟩
      obtain ⟨other, mem, same⟩ := List.mem_map.1 again
      obtain ⟨_, _, free, _⟩ := mem_winners_iff.1 mem
      exact free (by simp [same])

/-- Every label that is claimed and free has a winner. -/
theorem mem_labels_winners_iff {taken : List String} {s : String} :
    s ∈ (winners taken plans).map (·.label) ↔ s ∈ plans.map (·.label) ∧ s ∉ taken := by
  induction plans generalizing taken with
  | nil => simp [winners]
  | cons first rest ih =>
    rw [winners]
    split
    next known =>
      have other : s ∉ taken → s ≠ first.label := fun free same => free (same ▸ known)
      rw [ih, List.map_cons, List.mem_cons]
      tauto
    next free =>
      have mine : s = first.label → s ∉ taken := fun same => same ▸ free
      rw [List.map_cons, List.mem_cons, ih, List.map_cons, List.mem_cons, List.mem_append,
        List.mem_singleton]
      tauto

/-- Among plans with labels of their own, all with a free label win. -/
theorem winners_of_nodup {taken : List String} (own : (plans.map (·.label)).Nodup) :
    winners taken plans = plans.filter fun plan => plan.label ∉ taken := by
  induction plans generalizing taken with
  | nil => rfl
  | cons first rest ih =>
    rw [List.map_cons, List.nodup_cons] at own
    rw [winners]
    by_cases known : first.label ∈ taken
    · rw [if_pos known, ih own.2, List.filter_cons_of_neg (by simp [known])]
    · rw [if_neg known, ih own.2, List.filter_cons_of_pos (by simp [known])]
      refine congrArg _ (List.filter_congr fun plan mem => ?_)
      have other : plan.label ≠ first.label := by
        intro same
        exact own.1 (same ▸ List.mem_map_of_mem mem)
      simp [other]

/-- The labels that are claimed are those of the projects and of the winners. -/
theorem labels_attemptAll {bids : List Bid} (sound : db.Sound)
    (fresh : db.HaveFreshIds (bids.map (·.plan))) :
    (db.attemptAll (bids.map (·.attempt))).1.labels =
      db.labels ++ (winners db.labels (bids.map (·.plan))).map (·.label) := by
  have rows := rows_attemptAll sound fresh .project
  have kept : ∀ plans : List InstallPlan,
      (plans.flatMap fun plan => plan.kept .project).filterMap labelOf = plans.map (·.label) := by
    intro plans
    induction plans with
    | nil => rfl
    | cons plan rest ih =>
      have label : labelOf plan.project.toRow = some plan.label := labelOf_eq_some_iff.2 rfl
      rw [List.flatMap_cons, List.filterMap_append, ih]
      show [plan.project.toRow].filterMap labelOf ++ _ = _
      rw [List.filterMap_cons, label]
      rfl
  show List.filterMap labelOf (Database.rows _ .project) = _
  rw [rows, List.filterMap_append, kept]
  rfl

/-! ## §5. The race. -/

/-- **Installers that race lose nothing and double nothing.**  They bid with plans of
accepted protocols, made at any time, or with accepted documents, in any order; all ids
are fresh.  Then

  * each bid is told a conflict when its label was taken, or is that of a bid in front of
    it, and is done otherwise;
  * the database has the rows of the winners behind its own, and a winner for each label
    that was claimed and free;
  * when all claim labels of their own, in another order the tables have the same rows. -/
theorem race_outcome (reachable : db.ReachableBy ReviewProtocol.IsDecoded) (bids : List Bid)
    (fresh : db.HaveFreshIds (bids.map (·.plan))) :
    (∀ i plan, (bids.map (·.plan))[i]? = some plan →
      (db.attemptAll (bids.map (·.attempt))).2[i]? = some
        (if plan.label ∈ db.labels ∨ plan.label ∈ ((bids.map (·.plan)).take i).map (·.label)
          then .error (.conflict plan.label) else .ok plan.result)) ∧
    ((∀ entity, (db.attemptAll (bids.map (·.attempt))).1.rows entity = db.rows entity ++
        (winners db.labels (bids.map (·.plan))).flatMap fun plan => plan.kept entity) ∧
      (db.attemptAll (bids.map (·.attempt))).1.labels =
        db.labels ++ (winners db.labels (bids.map (·.plan))).map (·.label) ∧
      ((winners db.labels (bids.map (·.plan))).map (·.label)).Nodup ∧
      ∀ s, s ∈ (winners db.labels (bids.map (·.plan))).map (·.label) ↔
        s ∈ (bids.map (·.plan)).map (·.label) ∧ s ∉ db.labels) ∧
    (((bids.map (·.plan)).map (·.label)).Nodup → ∀ others : List Bid, others.Perm bids →
      ∀ entity, ((db.attemptAll (others.map (·.attempt))).1.rows entity).Perm
        ((db.attemptAll (bids.map (·.attempt))).1.rows entity)) := by
  have sound := reachable.sound fun _ decoded => decoded.hasFiniteScores
  refine ⟨fun i plan there => outcome_attemptAll sound fresh there,
    ⟨rows_attemptAll sound fresh, labels_attemptAll sound fresh,
      labels_winners_nodup _ _, fun s => mem_labels_winners_iff⟩, ?_⟩
  intro own others same entity
  -- with labels of their own, who wins is not a matter of the order
  have plans : (others.map (·.plan)).Perm (bids.map (·.plan)) := same.map _
  have theirs : ((others.map (·.plan)).map (·.label)).Nodup := (plans.map _).nodup_iff.2 own
  rw [rows_attemptAll sound (fresh.perm plans), rows_attemptAll sound fresh,
    winners_of_nodup own, winners_of_nodup theirs]
  exact ((plans.filter _).flatMap_right _).append_left _

theorem isAccepted_smallProtocol : smallProtocol.IsAccepted :=
  ⟨⟨smallProtocol.encode, isProper_smallProtocol, accepted_smallProtocol⟩,
    hasPositions_smallProtocol⟩

/-- A plan that Ada made before. -/
def adasBid : Bid where
  attempt := .plan (InstallPlan.of countingProvision smallProtocol "ada")
  plan := InstallPlan.of countingProvision smallProtocol "ada"
  offers := .plan ⟨by decide, by decide, by decide⟩ isAccepted_smallProtocol
    (InstallPlan.build_eq ..)

/-- Words that Ada does not use. -/
def laterProvision : Provision := ⟨fun n => UInt64.ofNat (n + 100), ⟨0, 0⟩⟩

/-- The same protocol, as a document. -/
def bobsBid : Bid where
  attempt := .document laterProvision smallProtocol.encode "bob"
  plan := InstallPlan.of laterProvision smallProtocol "bob"
  offers := .document ⟨by decide, by decide, by decide⟩ isProper_smallProtocol
    accepted_smallProtocol isAccepted_smallProtocol (InstallPlan.build_eq ..)

theorem race_of_two :
    HaveFreshIds {} [adasBid.plan, bobsBid.plan] ∧
      (attemptAll {} [adasBid.attempt, bobsBid.attempt]).2[0]? = some (.ok adasBid.plan.result) ∧
      (attemptAll {} [adasBid.attempt, bobsBid.attempt]).2[1]? =
        some (.error (.conflict bobsBid.plan.label)) := by
  have fresh : HaveFreshIds {} [adasBid.plan, bobsBid.plan] := by
    refine ⟨by decide +kernel, fun _ _ ref _ => ?_⟩
    obtain ⟨entity, id⟩ := ref
    cases entity <;> rfl
  have told := (race_outcome Relation.ReflTransGen.refl [adasBid, bobsBid] fresh).1
  refine ⟨fresh, (told 0 _ rfl).trans ?_, (told 1 _ rfl).trans ?_⟩
  · rw [if_neg (by simp [labels])]
  · have same : bobsBid.plan.label = adasBid.plan.label := rfl
    rw [if_pos (.inr (by simp [same]))]

end Database

end LiteratureReview
