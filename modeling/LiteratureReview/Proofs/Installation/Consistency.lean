/-
  LiteratureReview.Proofs.Installation.Consistency
  ────────────────────────────────────────────────
  What all databases that installing leaves behind have in common.

  The tables keep ids and labels apart, and see to it that the owners of rows
  are there.  They do not see to it that a project has a configuration that
  fits its protocol, that what the configuration enables is there and nothing
  else, that rows are numbered without gaps, or that a field and its parent
  are in one form.  That is so because rows only ever come in whole plans,
  and no plan touches what others have left (`IsConsistent.write`); and so it
  is after any sequence of events (`isConsistent_of_reachableBy`).
-/
import LiteratureReview.Proofs.Installation.Attempts
import LiteratureReview.Proofs.Installation.Numbering
import LiteratureReview.Proofs.Protocol.Lossless

namespace LiteratureReview

open Database EntityType Row

/-! ## §1. Protocols. -/

/-- A protocol that has been read from JSON of fewer than 128 levels, validated or not,
with lists that there are positions for. -/
structure ReviewProtocol.IsOrdinary (p : ReviewProtocol) : Prop where
  read : ∃ at_ v, Json.HasProperNumbers v ∧ v.depth < Scan.levelLimit ∧ decode at_ v = .ok p
  few : p.HasPositions

namespace ReviewProtocol

variable {p : ReviewProtocol}

theorem IsOrdinary.isWritable (ordinary : p.IsOrdinary) : p.IsWritable Scan.levelLimit := by
  obtain ⟨at_, v, numbers, shallow, decoded⟩ := ordinary.read
  exact isWritable_of_decode numbers shallow (by decide) decoded

/-- A document of fewer than 128 levels has an ordinary protocol. -/
theorem isOrdinary_of_validate {document : Json} (proper : document.IsProper)
    (shallow : document.depth < Scan.levelLimit) (few : p.HasPositions)
    (accepted : Validator.validate document = .ok p) : p.IsOrdinary where
  read := ⟨_, _, proper.hasProperNumbers, shallow, (Validator.validate_eq_ok_iff.1 accepted).2⟩
  few := few

end ReviewProtocol

/-! ## §2. Projects. -/

/-- A configuration is the one that its own protocol asks for. -/
structure ProjectConfig.FitsProtocol (c : ProjectConfig) : Prop where
  screening : c.screeningEnabled = c.protocol.screening.isSome
  quality : c.qaEnabled = c.protocol.quality.isSome
  extraction : c.extractionEnabled = !c.protocol.categories.isEmpty
  conflictType : c.conflictType = .ofProtocol (c.protocol.screening.map (·.conflictType))
  conflictResolution :
    c.conflictResolution = .ofProtocol (c.protocol.screening.map (·.conflictResolution))
  reviewers : c.reviewPerPaper = (c.protocol.screening.map (·.reviewPerPaper)).getD 2
  percentage : c.validationPercentage =
    (c.protocol.screening.bind (·.validationPercentage)).getD 20
  validation : c.validationEnabled = decide (0 < c.validationPercentage)
  mode : c.assignmentMode = (c.protocol.screening.bind (·.assignmentMode)).getD .normal
  sourcePapers : c.sourcePapersEnabled =
    c.protocol.screening.any fun s => !(s.sourcePapers.getD []).isEmpty
  searchStrategy : c.searchStrategyEnabled =
    c.protocol.screening.any fun s => !(s.searchStrategy.getD []).isEmpty

/-- A plan has what its configuration enables, and nothing else. -/
structure InstallPlan.FitsConfig (plan : InstallPlan) : Prop where
  label : plan.label = Text.lowercase plan.config.protocol.project.shortName.text
  founder : plan.member.userId = plan.project.createdBy
  config : plan.config.FitsProtocol
  template : plan.quality.isSome = plan.config.qaEnabled
  form : plan.form.isSome = plan.config.extractionEnabled
  phases : plan.phases ≠ [] ↔ plan.config.screeningEnabled = true
  criteria : plan.criteria ≠ [] → plan.config.screeningEnabled = true

theorem Plan.fitsProtocol_config (by_ : Provision) (projectId : String) (p : ReviewProtocol) :
    (Plan.config by_ projectId p).FitsProtocol := by
  refine {
    screening := rfl
    quality := rfl
    extraction := rfl
    conflictType := rfl
    conflictResolution := rfl
    reviewers := rfl
    percentage := rfl
    validation := rfl
    mode := rfl
    sourcePapers := ?_
    searchStrategy := ?_ }
  · show (p.screening.map (·.hasSourcePapers)).getD false = p.screening.any _
    cases p.screening <;> rfl
  · show (p.screening.map (·.hasSearchStrategy)).getD false = p.screening.any _
    cases p.screening <;> rfl

/-- There is a phase even when none is declared. -/
theorem Plan.phases_ne_nil {by_ : Provision} {projectId : String} {start : Nat}
    {s : ScreeningSection} : Plan.phases by_ projectId start s ≠ [] := by
  unfold Plan.phases
  split
  · exact List.cons_ne_nil _ _
  next some =>
    intro none
    exact some (List.mapIdx_eq_nil_iff.1 none)

/-- **A plan fits its configuration, and its configuration fits the protocol.** -/
theorem InstallPlan.fitsConfig_of (by_ : Provision) (p : ReviewProtocol) (user : String) :
    (of by_ p user).FitsConfig := by
  have enabled : (of by_ p user).config.screeningEnabled = p.screening.isSome := rfl
  refine {
    label := rfl
    founder := rfl
    config := Plan.fitsProtocol_config ..
    template := Option.isSome_map
    form := ?_
    phases := ?_
    criteria := ?_ }
  · show Option.isSome (if p.extractionEnabled then _ else none) = p.extractionEnabled
    cases p.extractionEnabled <;> rfl
  -- phases and criteria are made of a screening section
  all_goals
    rw [enabled]
    rcases of_screening_cases by_ p user with ⟨none, noCriteria, noPhases⟩ |
      ⟨s, start, some, _, phases⟩
  · rw [none, noPhases]
    exact ⟨fun some => absurd rfl some, nofun⟩
  · rw [some, phases]
    exact ⟨fun _ => rfl, fun _ => Plan.phases_ne_nil⟩
  · rw [noCriteria]
    exact fun some => absurd rfl some
  · rw [some]
    exact fun _ => rfl

/-! ## §3. Projects that are complete. -/

namespace Database

/-- The row of a project with some id and configuration, and all that belongs to it: its
founder as the only member, and the rows of what the configuration enables. -/
structure IsComplete (db : Database) (project : Row) (id : String) (c : ProjectConfig) : Prop where
  named : EntityType.project.cellAt "id" project = .text id
  label : EntityType.project.cellAt "label" project =
    .text (Text.lowercase c.protocol.project.shortName.text)
  member : ∃ row, db.having .projectMember "project_id" id = [row] ∧
    EntityType.projectMember.cellAt "role" row = .text "ADMIN" ∧
      EntityType.projectMember.cellAt "user_id" row =
        EntityType.project.cellAt "created_by" project
  config : ∃ row, db.having .projectConfig "project_id" id = [row] ∧
    ProjectConfig.ofRow row = .ok c
  fits : c.FitsProtocol
  template : (db.having .qaTemplate "project_id" id).length = if c.qaEnabled then 1 else 0
  form : (db.having .extractionForm "project_id" id).length =
    if c.extractionEnabled then 1 else 0
  phases : db.having .screeningPhase "project_id" id ≠ [] ↔ c.screeningEnabled = true
  criteria : db.having .exclusionCriterion "project_id" id ≠ [] → c.screeningEnabled = true

variable {db after later : Database} {plan : InstallPlan} {row : Row} {id : String}
variable {c : ProjectConfig}

/-- A project stays complete as long as nothing touches what belongs to it. -/
theorem IsComplete.keeps (complete : db.IsComplete row id c) (stored : row ∈ db.rows .project)
    (keeps : db.Keeps later) : later.IsComplete row id c := by
  have known : db.hasId .project (.text id) = true :=
    hasId_iff.2 ⟨row, stored, Cell.agrees_text_iff.2 complete.named⟩
  -- so whatever is looked up by the id is what it was
  have same : ∀ entity, Points entity "project_id" .project →
      later.having entity "project_id" id = db.having entity "project_id" id :=
    fun _ points => keeps.rows points known
  refine {
    named := complete.named
    label := complete.label
    member := ?_
    config := ?_
    fits := complete.fits
    template := ?_
    form := ?_
    phases := ?_
    criteria := ?_ }
  · rw [same .projectMember (by decide)]
    exact complete.member
  · rw [same .projectConfig (by decide)]
    exact complete.config
  · rw [same .qaTemplate (by decide)]
    exact complete.template
  · rw [same .extractionForm (by decide)]
    exact complete.form
  · rw [same .screeningPhase (by decide)]
    exact complete.phases
  · rw [same .exclusionCriterion (by decide)]
    exact complete.criteria

theorem length_made {α : Type} {toRow : α → Row} (o : Option α) :
    (o.toList.map toRow).length = if o.isSome then 1 else 0 := by
  cases o <;> rfl

/-- **The project of a plan is complete once the plan has been carried out.** -/
theorem isComplete_of_stores (stores : db.Stores plan) (coherent : plan.IsCoherent)
    (fits : plan.FitsConfig) (read : ProjectConfig.ofRow plan.config.toRow = .ok plan.config) :
    db.IsComplete plan.project.toRow plan.project.id plan.config := by
  refine {
    named := rfl
    label := congrArg Cell.text fits.label
    member := ⟨_, stores.having_member coherent, ?_, congrArg Cell.text fits.founder⟩
    config := ⟨_, stores.having_config coherent, read⟩
    fits := fits.config
    template := ?_
    form := ?_
    phases := ?_
    criteria := ?_ }
  · show Cell.text plan.member.role.name = _
    cases plan.member.role
    rfl
  · rw [stores.having_template coherent, length_made, fits.template]
  · rw [stores.having_form coherent, length_made, fits.form]
  · rw [stores.having_phases coherent, Ne, List.map_eq_nil_iff]
    exact fits.phases
  · rw [stores.having_criteria coherent, Ne, List.map_eq_nil_iff]
    exact fits.criteria

/-! ## §4. Consistent databases. -/

/-- What the databases that installing leaves behind have in common: labels of their own,
projects that are complete, rows that are numbered without gaps, and fields that stand
below their parents. -/
structure IsConsistent (db : Database) : Prop where
  labels : db.labels.Nodup
  projects : ∀ row ∈ db.rows .project, ∃ id c, db.IsComplete row id c
  numbered : ∀ {entity : EntityType} {column : String}, entity.numberedUnder = some column →
    IsNumberedIn entity column (db.rows entity)
  parents : HaveParents (db.rows .extractionField)

theorem isConsistent_empty : IsConsistent {} where
  labels := List.nodup_nil
  projects := nofun
  numbered {entity _} _ := by
    cases entity <;> exact isNumberedIn_nil
  parents := nofun

/-- Rows are numbered under rows that they belong to. -/
theorem exists_points_of_numberedUnder {entity : EntityType} {column : String}
    (under : entity.numberedUnder = some column) : ∃ owner, Points entity column owner := by
  cases entity <;> cases under
  case exclusionCriterion => exact ⟨.project, by decide⟩
  case screeningPhase => exact ⟨.project, by decide⟩
  case qaQuestion => exact ⟨.qaTemplate, by decide⟩
  case qaOption => exact ⟨.qaQuestion, by decide⟩
  case extractionField => exact ⟨.extractionForm, by decide⟩

/-- A plan numbers the rows of owners of its own, and leaves those of other owners alone. -/
theorem isNumberedIn_of_write {entity : EntityType} {column : String} (intact : db.Intact)
    (coherent : plan.IsCoherent) (h : db.write plan.rows = .ok after)
    (under : entity.numberedUnder = some column)
    (before : IsNumberedIn entity column (db.rows entity))
    (new : IsNumberedIn entity column (plan.kept entity)) :
    IsNumberedIn entity column (after.rows entity) := by
  intro owner
  obtain ⟨kind, points⟩ := exists_points_of_numberedUnder under
  show ∃ n, (after.having entity column owner).map _ = Cell.places n
  by_cases nothing : db.having entity column owner = []
  · rw [having_of_write h, nothing, List.nil_append]
    exact new owner
  · -- the owner was there before
    obtain ⟨row, mem⟩ := List.exists_mem_of_ne_nil _ nothing
    obtain ⟨stored, owned⟩ := List.mem_filter.1 mem
    have known := hasId_of_points intact points stored (Cell.agrees_text_iff.1 owned)
    rw [having_of_known coherent points known h]
    exact before owner

/-- **A transaction leaves a consistent database consistent.** -/
theorem IsConsistent.write (consistent : db.IsConsistent) (sound : db.Sound)
    (made : plan.IsMadeOf ReviewProtocol.IsOrdinary) (h : db.write plan.rows = .ok after) :
    after.IsConsistent := by
  obtain ⟨by_, p, user, clock, ordinary, rfl⟩ := made
  have coherent : (InstallPlan.of by_ p user).IsCoherent := InstallPlan.isCoherent_of
  have keeps := keeps_of_write coherent h
  have stores := stores_of_write sound.intact h
  have distinct := InstallPlan.questionIds_nodup (freshIds_of_write h).distinct
  refine {
    labels := ?_
    projects := ?_
    numbered := ?_
    parents := ?_ }
  · -- a plan that has been carried out had a new label
    rw [labels_of_write h, List.nodup_append]
    refine ⟨consistent.labels, List.nodup_singleton _, fun s old t new same => ?_⟩
    rw [same, List.mem_singleton.1 new] at old
    exact free_of_write h (mem_labels_iff.1 old)
  · intro row mem
    rw [rows_of_write h, List.mem_append] at mem
    rcases mem with old | new
    · obtain ⟨id, c, complete⟩ := consistent.projects row old
      exact ⟨id, c, complete.keeps old keeps⟩
    · -- the protocol in the configuration is read back as it was written
      obtain rfl := List.mem_singleton.1 new
      exact ⟨_, _, isComplete_of_stores stores coherent (InstallPlan.fitsConfig_of by_ p user)
        (InstallPlan.ofRow_config clock ordinary.isWritable)⟩
  · intro entity column under
    exact isNumberedIn_of_write sound.intact coherent h under (consistent.numbered under)
      (InstallPlan.kept_isNumberedIn ordinary.few distinct under)
  · -- a field and its parent come in one plan
    intro row mem parent below
    rw [rows_of_write h] at mem ⊢
    rcases List.mem_append.1 mem with old | new
    · obtain ⟨above, there, id, stands⟩ := consistent.parents row old parent below
      exact ⟨above, List.mem_append_left _ there, id, stands⟩
    · obtain ⟨above, there, id, stands⟩ :=
        InstallPlan.kept_haveParents ordinary.few row new parent below
      exact ⟨above, List.mem_append_right _ there, id, stands⟩

theorem IsConsistent.event (consistent : db.IsConsistent) (sound : db.Sound)
    (event : Event ReviewProtocol.IsOrdinary db after) : after.IsConsistent :=
  event.preserves sound.storable consistent fun made written => consistent.write sound made written

/-- **Every database that comes about is consistent**: after any sequence of documents,
protocols and plans, whether they were installed or not, and of closing and opening the
file. -/
theorem isConsistent_of_reachableBy (reachable : db.ReachableBy ReviewProtocol.IsOrdinary) :
    db.IsConsistent := by
  induction reachable with
  | refl => exact isConsistent_empty
  | tail before event ih =>
    have sound := ReachableBy.sound (fun _ ordinary => ordinary.isWritable.finite) before
    exact ih.event sound event

theorem isConsistent_of_smallDocument :
    ReachableBy ReviewProtocol.IsOrdinary
        (attempt {} (.document countingProvision smallProtocol.encode "ada")).1 ∧
      (∃ result,
        (attempt {} (.document countingProvision smallProtocol.encode "ada")).2 = .ok result) ∧
      IsConsistent (attempt {} (.document countingProvision smallProtocol.encode "ada")).1 := by
  have ordinary : smallProtocol.IsOrdinary :=
    ReviewProtocol.isOrdinary_of_validate isProper_smallProtocol (by decide)
      hasPositions_smallProtocol accepted_smallProtocol
  have reachable : ReachableBy ReviewProtocol.IsOrdinary
      (attempt {} (.document countingProvision smallProtocol.encode "ada")).1 :=
    .single (.attempt (.document ⟨by decide, by decide, by decide⟩ isProper_smallProtocol
      accepted_smallProtocol ordinary (InstallPlan.build_eq ..)))
  exact ⟨reachable, ⟨_, install_smallDocument⟩, isConsistent_of_reachableBy reachable⟩

end Database

end LiteratureReview
