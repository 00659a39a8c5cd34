/-
  LiteratureReview.Proofs.Installation.Outcome
  ────────────────────────────────────────────
  How an installation ends.

  Of all constraints of the tables, two can be broken by a plan whose ids are
  new: the one that keeps labels apart, and the bounds on the configuration.
  So an installation ends in a conflict when the label is taken
  (`install_of_label_taken`), goes well when it is free and the bounds are
  kept (`install_of_label_free`), and fails otherwise
  (`install_of_out_of_bounds`).
-/
import LiteratureReview.Proofs.Installation.Reachable
import LiteratureReview.Proofs.Store.Conflicts

namespace LiteratureReview

open Database EntityType

/-! ## §1. Labels. -/

namespace Database

variable {db : Database}

/-- A project with this label is stored. -/
def HasLabel (db : Database) (label : String) : Prop :=
  ∃ row ∈ db.rows .project, EntityType.project.cellAt "label" row = .text label

theorem mem_having_label_iff {label : String} {row : Row} :
    row ∈ db.having .project "label" label ↔
      row ∈ db.rows .project ∧ EntityType.project.cellAt "label" row = .text label := by
  rw [having, List.mem_filter, Cell.agrees_text_iff]

/-- A label that is taken is found. -/
theorem findProject_of_taken {p : ReviewProtocol} (sound : db.Sound) (taken : db.HasLabel p.label) :
    ∃ q, db.findProject p.label = .ok (some q) := by
  obtain ⟨row, mem, same⟩ := taken
  rw [findProject, p.lowercase_label]
  cases rows : db.having .project "label" p.label with
  | nil =>
    have : row ∈ db.having .project "label" p.label := mem_having_label_iff.2 ⟨mem, same⟩
    rw [rows] at this
    cases this
  | cons first others =>
    have there : first ∈ db.having .project "label" p.label := rows ▸ List.mem_cons_self
    obtain ⟨q, read⟩ := sound.readable first (mem_having_label_iff.1 there).1
    exact ⟨q, by rw [atMostOne, read]; rfl⟩

theorem findProject_of_free {p : ReviewProtocol} (free : ¬db.HasLabel p.label) :
    db.findProject p.label = .ok none := by
  have none : db.having .project "label" p.label = [] := by
    refine List.eq_nil_iff_forall_not_mem.2 fun row mem => free ?_
    obtain ⟨stored, same⟩ := mem_having_label_iff.1 mem
    exact ⟨row, stored, same⟩
  rw [findProject, p.lowercase_label, none]
  rfl

end Database

/-! ## §2. Writing a plan. -/

namespace InstallPlan

variable {plan : InstallPlan} {db : Database}

/-- The ids of a plan differ from each other and from all ids in the database. -/
structure HasFreshIds (plan : InstallPlan) (db : Database) : Prop where
  distinct : (plan.rows.map identify).Nodup
  unused : ∀ ref ∈ plan.rows.map identify, db.hasId ref.1 ref.2 = false

/-- A plan with new ids and a new label is written as a whole. -/
theorem write_of_fresh (intact : db.Intact) (coherent : plan.IsCoherent)
    (numbered : plan.IsNumbered (· < ·)) (bounds : plan.config.WithinBounds)
    (fresh : plan.HasFreshIds db)
    (free : ¬db.HasLabel plan.label) : db.write plan.rows = .ok (db.append plan.rows) := by
  have unused : ∀ w ∈ plan.rows, db.hasId w.1 (w.1.cellAt "id" w.2) = false :=
    fun w mem => fresh.unused _ (List.mem_map_of_mem mem)
  refine write_of_apart (admits_rows bounds) (grounded_rows coherent) nofun ?_
    (apart_rows numbered fresh.distinct)
  refine outside_of_fresh intact (admits_rows bounds) (grounded_rows coherent) named_rows unused ?_
  rintro ⟨_, row⟩ mem rfl r stored
  rw [← Bool.not_eq_true]
  intro same
  obtain rfl := project_of_mem_rows mem
  have label := agrees_of_sameKey same (List.mem_singleton_self "label")
  rw [Project.settled_toRow, Cell.agrees_comm] at label
  exact free ⟨r, stored, Cell.agrees_text_iff.1 label⟩

theorem kind_of_mem_tail : ∀ w ∈ plan.rows.tail, w.1 ≠ .project := by
  cases quality : plan.quality <;> cases form : plan.form <;>
    simp [rows, quality, form, qualityRows, formRows, or_imp, forall_and]

/-- A key that is reported as taken is shared with another row. -/
theorem findTaken_of_findBroken {entity e : EntityType} {others : List Row} {row : Row}
    {key : List String} (h : entity.findBroken others row = some (.unique e key)) :
    e = entity ∧ ∃ r ∈ others, entity.sameKey key row r = true := by
  rcases findBroken_cases h with ⟨c, _, same⟩ | ⟨c, _, k, _, same⟩ | ⟨_, _, same, shared⟩
  · cases same
  · cases same
  · cases same
    exact ⟨rfl, shared⟩

/-- A plan with a new label does not break the constraint on labels. -/
theorem broken_ne_label {broken : Constraint} (free : ¬db.HasLabel plan.label)
    (h : db.write plan.rows = .error broken) : broken ≠ labelConstraint := by
  rintro rfl
  obtain ⟨front, w, back, split_, found | reference⟩ := write_error h
  · obtain ⟨kind, r, stored, same⟩ := findTaken_of_findBroken found
    -- the project is the first row, so that nothing has been written before it
    have first : front = [] := by
      cases front with
      | nil => rfl
      | cons x others =>
        have tail : plan.rows.tail = others ++ w :: back := by rw [split_]; rfl
        have mem : w ∈ plan.rows.tail := by simp [tail]
        exact absurd kind.symm (kind_of_mem_tail w mem)
    subst first
    obtain ⟨_, row⟩ := w
    obtain rfl : _ = EntityType.project := kind.symm
    obtain rfl := project_of_mem_rows (split_ ▸ List.mem_append_right _ List.mem_cons_self)
    have label := agrees_of_sameKey same (List.mem_singleton_self "label")
    rw [Cell.agrees_comm] at label
    exact free ⟨r, stored, Cell.agrees_text_iff.1 label⟩
  · cases reference

end InstallPlan

/-- Questions have ids of their own when all rows have. -/
theorem InstallPlan.questionIds_nodup {plan : InstallPlan}
    (distinct : (plan.rows.map identify).Nodup) :
    ∀ q, plan.quality = some q → (q.questions.map (·.id)).Nodup := by
  intro q planned
  have among : (q.questions.map fun r => (EntityType.qaQuestion, r.toRow)).Sublist plan.rows := by
    unfold rows
    rw [planned]
    refine List.Sublist.trans ?_ (List.sublist_append_left _ _)
    refine List.Sublist.trans ?_ (List.sublist_append_right _ _)
    exact List.Sublist.cons _ (List.sublist_append_left _ _)
  have ids := distinct.sublist (among.map identify)
  rw [List.map_map] at ids
  exact List.Nodup.of_map (fun s => (EntityType.qaQuestion, Cell.text s)) (by rwa [List.map_map])

/-! ## §3. The configuration of a plan. -/

theorem Plan.withinBounds_config_iff {by_ : Provision} {projectId : String} {p : ReviewProtocol} :
    (Plan.config by_ projectId p).WithinBounds ↔ p.WithinBounds := by
  unfold ProjectConfig.WithinBounds ReviewProtocol.WithinBounds Plan.config
    Plan.validationPercentage
  cases p.screening with
  | none => simp [Plan.defaultReviewers, Plan.defaultValidationPercentage]
  | some s =>
    cases share : s.validationPercentage with
    | none => simp [share, Plan.defaultValidationPercentage]
    | some n => simp [share]

/-! ## §4. The outcome. -/

namespace Database

variable {db : Database} {by_ : Provision} {p : ReviewProtocol} {user : String}

theorem install_of_label_taken (sound : db.Sound) (taken : db.HasLabel p.label) :
    db.install by_ p user = (db, .error (.conflict p.label)) := by
  obtain ⟨q, found⟩ := findProject_of_taken sound taken
  rw [install, found]

theorem install_eq_apply (free : ¬db.HasLabel p.label) :
    db.install by_ p user = db.apply (InstallPlan.of by_ p user) := by
  rw [install, findProject_of_free free, InstallPlan.build_eq]

theorem install_of_label_free (sound : db.Sound) (few : p.HasPositions) (bounds : p.WithinBounds)
    (fresh : (InstallPlan.of by_ p user).HasFreshIds db) (free : ¬db.HasLabel p.label) :
    (db.install by_ p user).2 = .ok (InstallPlan.of by_ p user).result := by
  have numbered := InstallPlan.isNumbered_of few.ascends
    (InstallPlan.questionIds_nodup fresh.distinct)
  have written := InstallPlan.write_of_fresh sound.intact InstallPlan.isCoherent_of numbered
    (Plan.withinBounds_config_iff.2 bounds) fresh free
  rw [install_eq_apply free, apply, written]

theorem install_of_out_of_bounds (out : ¬p.WithinBounds) (free : ¬db.HasLabel p.label) :
    ∃ cause, db.install by_ p user = (db, .error (.internal cause)) := by
  rw [install_eq_apply free, apply]
  cases written : db.write (InstallPlan.of by_ p user).rows with
  | ok after => exact absurd (Plan.withinBounds_config_iff.1 (withinBounds_of_write written)) out
  | error broken =>
    have other := InstallPlan.broken_ne_label free written
    have understood := DatabaseError.isLabelConflict_iff (mem_constraints_of_write written)
    refine ⟨.engine (.constraint broken), ?_⟩
    simp only [classify, understood, other, if_false]

/-- **How an installation ends.**  Lists that become rows are not longer than
there are positions, and generated ids are new.  Then there is a conflict
exactly when the label is taken; with a label that is free, the installation
goes well exactly when the protocol is within the bounds of the store, and
fails internally otherwise.  A document that the validator accepts is within
bounds. -/
theorem install_outcome (reachable : db.Reachable) (few : p.HasPositions)
    (fresh : ∀ plan, InstallPlan.build by_ p user = .ok plan → plan.HasFreshIds db) :
    ((db.install by_ p user).2 = .error (.conflict p.label) ↔ db.HasLabel p.label) ∧
      (¬db.HasLabel p.label →
        ((∃ result, (db.install by_ p user).2 = .ok result) ↔ p.WithinBounds) ∧
          (¬p.WithinBounds → ∃ cause, (db.install by_ p user).2 = .error (.internal cause))) ∧
      ∀ document : Json, document.IsProper → Validator.validate document = .ok p →
        ¬db.HasLabel p.label → ∃ result, (db.installDocument by_ document user).2 = .ok result := by
  have sound := reachable.sound
  have new := fresh _ (InstallPlan.build_eq by_ p user)
  have goesWell : p.WithinBounds → ¬db.HasLabel p.label →
      (db.install by_ p user).2 = .ok (InstallPlan.of by_ p user).result :=
    fun bounds free => install_of_label_free sound few bounds new free
  have fails : ¬p.WithinBounds → ¬db.HasLabel p.label →
      ∃ cause, (db.install by_ p user).2 = .error (.internal cause) := by
    intro out free
    have failed : ∃ cause, db.install by_ p user = (db, .error (.internal cause)) :=
      install_of_out_of_bounds out free
    exact failed.imp fun cause failed => by rw [failed]
  refine ⟨⟨fun conflict => ?_, fun taken => ?_⟩, fun free => ⟨⟨fun done => ?_, fun bounds => ?_⟩,
    fun out => fails out free⟩, ?_⟩
  · refine Classical.byContradiction fun free => ?_
    by_cases bounds : p.WithinBounds
    · rw [goesWell bounds free] at conflict
      cases conflict
    · obtain ⟨cause, failed⟩ := fails bounds free
      rw [failed] at conflict
      cases conflict
  · rw [install_of_label_taken sound taken]
  · refine Classical.byContradiction fun out => ?_
    obtain ⟨result, done⟩ := done
    obtain ⟨cause, failed⟩ := fails out free
    rw [failed] at done
    cases done
  · exact ⟨_, goesWell bounds free⟩
  · intro document proper accepted free
    have read := (Validator.validate_eq_ok_iff.1 accepted).2
    have bounds := ReviewProtocol.withinBounds_of_isProtocol proper
      (Validator.isProtocol_of_validate proper accepted) read
    rw [installDocument, accepted]
    exact ⟨_, goesWell bounds free⟩

/-- A protocol with a section of every kind. -/
def smallProtocol : ReviewProtocol where
  project := ⟨⟨"Review", rfl⟩, ⟨"A review", by decide⟩, none⟩
  screening := some
    { reviewPerPaper := 2
      conflictType := .decision
      conflictResolution := .majority
      exclusionCriteria := [⟨⟨"No trial", by decide⟩⟩]
      sourcePapers := none
      searchStrategy := none
      validationPercentage := some 10
      assignmentMode := none
      phases := none }
  quality := some ⟨[⟨"Is it blinded?", by decide⟩], [⟨⟨"Yes", by decide⟩, .ofInt 1⟩], .ofInt 1⟩
  categories := [.node ⟨⟨"dose", rfl⟩, none, true, none⟩ (.simple .int none none none) none]
  reporting := none

/-- Random words that are not random at all. -/
def countingProvision : Provision := ⟨UInt64.ofNat, ⟨0, 0⟩⟩

theorem hasPositions_smallProtocol : smallProtocol.HasPositions where
  criteria := by rintro s ⟨⟩; decide
  phases := by rintro s ⟨⟩; decide
  questions := by rintro s ⟨⟩; decide
  responses := by rintro s ⟨⟩; decide
  fields := by decide +kernel

theorem hasFreshIds_smallProtocol {plan : InstallPlan}
    (planned : InstallPlan.build countingProvision smallProtocol "ada" = .ok plan) :
    plan.HasFreshIds {} := by
  rw [InstallPlan.build_eq] at planned
  cases planned
  exact ⟨by decide +kernel, by decide +kernel⟩

theorem install_outcome_small :
    Reachable {} ∧ smallProtocol.HasPositions ∧
      ∃ result, (install {} countingProvision smallProtocol "ada").2 = .ok result := by
  have bounds : smallProtocol.WithinBounds := by
    rintro s ⟨⟩
    exact ⟨by decide, by rintro n ⟨⟩; decide⟩
  have free : ¬HasLabel {} smallProtocol.label := nofun
  have outcome := install_outcome .empty hasPositions_smallProtocol
    fun plan planned => hasFreshIds_smallProtocol planned
  exact ⟨.empty, hasPositions_smallProtocol, (outcome.2.1 free).1.2 bounds⟩

end Database

end LiteratureReview
