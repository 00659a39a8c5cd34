/-
  LiteratureReview.Proofs.Installation.Answers
  ────────────────────────────────────────────
  What is installed is what is read back.

  Every row of a plan can be read from the row that its table keeps
  (`isReadable_of`); the tables list the rows of one owner in the order of
  the plan (`listed_of_made`); and whatever happens to the database later,
  it has the same rows for the project (`Stores.leadsTo`).  Together: once a
  plan has been carried out, every question about its project is answered
  with the rows of the plan, then and later (`Stores.answers`).
-/
import LiteratureReview.Proofs.Installation.Lasting
import LiteratureReview.Proofs.Store.Texts

namespace LiteratureReview

open Database

/-! ## §1. Rows that can be read. -/

namespace InstallPlan

/-- Every row of a plan is read back from what its table keeps of it. -/
structure IsReadable (plan : InstallPlan) : Prop where
  project : Project.ofRow plan.project.toRow = .ok plan.project.restored
  member : ProjectMember.ofRow plan.member.toRow = .ok plan.member
  config : ProjectConfig.ofRow plan.config.toRow = .ok plan.config
  criteria : ∀ r ∈ plan.criteria, ExclusionCriterion.ofRow r.toRow = .ok r
  phases : ∀ r ∈ plan.phases, ScreeningPhase.ofRow r.toRow = .ok r.restored
  template : ∀ q, plan.quality = some q →
    QaTemplate.ofRow q.template.restored.toRow = .ok q.template.restored
  questions : ∀ q, plan.quality = some q → ∀ r ∈ q.questions, QaQuestion.ofRow r.toRow = .ok r
  options : ∀ q, plan.quality = some q → ∀ r ∈ q.options,
    QaOption.ofRow r.restored.toRow = .ok r.restored
  form : ∀ f, plan.form = some f → ExtractionForm.ofRow f.toRow = .ok f
  fields : ∀ f, plan.form = some f → ∀ r ∈ plan.fields, ExtractionField.ofRow r.toRow = .ok r

/-- The texts of a plan are read as they were written: none is cut off at a NUL. -/
def HasWholeTexts (plan : InstallPlan) : Prop := ∀ w ∈ plan.rows, Row.HasWholeTexts w.2

/-- All times of a plan are the time it was made at. -/
structure IsDated (t : Time.Instant) (plan : InstallPlan) : Prop where
  project : plan.project.createdAt = t
  member : plan.member.createdAt = t
  config : plan.config.createdAt = t
  criteria : ∀ r ∈ plan.criteria, r.createdAt = t
  phases : ∀ r ∈ plan.phases, r.createdAt = t
  template : ∀ q, plan.quality = some q → q.template.createdAt = t
  form : ∀ f, plan.form = some f → f.createdAt = t ∧ f.publishedAt = some t

variable {by_ : Provision} {p : ReviewProtocol} {user : String}

theorem isDated_of : (of by_ p user).IsDated by_.now := by
  refine {
    project := rfl
    member := rfl
    config := rfl
    criteria := ?_
    phases := ?_
    template := ?_
    form := ?_ }
  · intro r mem
    obtain ⟨s, start, -, inside⟩ := mem_criteria_of mem
    obtain ⟨i, there, rfl⟩ := List.mem_mapIdx.1 inside
    rfl
  · intro r mem
    obtain ⟨s, start, -, inside⟩ := mem_phases_of mem
    -- the one phase that is made up when none is declared has the same time
    rw [Plan.phases] at inside
    split at inside
    · rw [List.mem_singleton.1 inside]
    · obtain ⟨i, there, rfl⟩ := List.mem_mapIdx.1 inside
      rfl
  · intro q planned
    obtain ⟨section_, _, rfl⟩ := Option.map_eq_some_iff.1 planned
    rfl
  · intro f planned
    unfold of at planned
    cases enabled : p.extractionEnabled with
    | false => simp [enabled] at planned
    | true =>
      simp only [enabled, if_true, Option.some.injEq] at planned
      subst planned
      exact ⟨rfl, rfl⟩

/-- The fields of a plan have settings that can be written, and no empty parent. -/
theorem writable_of_mem_fields (writable : p.IsWritable Scan.levelLimit) {r : ExtractionField}
    (mem : r ∈ (of by_ p user).fields) :
    r.config.IsWritable (Scan.levelLimit - 1) ∧ r.parentId ≠ some "" := by
  obtain ⟨f, start, -, d, among, rfl⟩ := mem_fields_of mem
  refine ⟨isWritable_of_mem_flatten writable.categories among, fun empty => ?_⟩
  obtain ⟨j, _, parent⟩ := Option.map_eq_some_iff.1 empty
  -- ids begin with the kind of their row, so that none is empty
  have front : "fld" ++ "-" ++ wordDigits (by_.words (start + j)) = "" := parent
  have := congrArg String.toList front
  simp at this

/-- The configuration of a plan has no text that a NUL would cut off. -/
theorem hasWholeTexts_config (proper : p.encode.IsProper) :
    (of by_ p user).config.toRow.HasWholeTexts :=
  ProjectConfig.hasWholeTexts_toRow (EntityType.nulFree_rowId _ _) (EntityType.nulFree_rowId _ _)
    proper

/-- **The configuration of a plan is read back**, whatever becomes of the texts of other
rows. -/
theorem ofRow_config (clock : by_.now.IsClock) (writable : p.IsWritable Scan.levelLimit) :
    ProjectConfig.ofRow (of by_ p user).config.toRow = .ok (of by_ p user).config :=
  ProjectConfig.ofRow_toRow (hasWholeTexts_config (ReviewProtocol.holds_encode writable).1) clock
    writable

/-- **The plan of a protocol that can be written is readable**, when its time is one of a
clock and its texts are whole. -/
theorem isReadable_of (clock : by_.now.IsClock) (writable : p.IsWritable Scan.levelLimit)
    (whole : (of by_ p user).HasWholeTexts) : (of by_ p user).IsReadable := by
  have dated : (of by_ p user).IsDated by_.now := isDated_of
  have texts : ∀ entity, ∀ row ∈ (of by_ p user).kept entity, row.HasWholeTexts := by
    intro entity row mem
    obtain ⟨given, planned, rfl⟩ := mem_kept.1 mem
    exact (whole _ planned).settled
  have clocks : ∀ {t}, t = by_.now → t.IsClock := fun same => same ▸ clock
  -- every kind of row is read back on its own
  refine {
    project := Project.ofRow_toRow (texts .project _ (by simp [kept])) clock
    member := ProjectMember.ofRow_toRow (texts .projectMember _ (by simp [kept])) clock
    config := ofRow_config clock writable
    criteria := fun r mem => ExclusionCriterion.ofRow_toRow
      (texts .exclusionCriterion _ (List.mem_map_of_mem mem))
      (clocks (dated.criteria r mem))
    phases := fun r mem => ScreeningPhase.ofRow_toRow
      (texts .screeningPhase _ (List.mem_map_of_mem mem)) (clocks (dated.phases r mem))
    template := ?_
    questions := ?_
    options := ?_
    form := ?_
    fields := ?_ }
  · intro q planned
    exact QaTemplate.ofRow_toRow (texts .qaTemplate _ (by simp [kept, planned]))
      (clocks (dated.template q planned))
  · intro q planned r mem
    exact QaQuestion.ofRow_toRow (texts .qaQuestion _ (by
      simpa [kept, planned] using ⟨r, mem, rfl⟩))
  · intro q planned r mem
    exact QaOption.ofRow_toRow (texts .qaOption _ (by
      simpa [kept, planned] using ⟨r, mem, rfl⟩))
  · intro f planned
    obtain ⟨created, published⟩ := dated.form f planned
    refine ExtractionForm.ofRow_toRow (texts .extractionForm _ (by simp [kept, planned]))
      (fun t given => clocks ?_) (clocks created)
    rw [published] at given
    exact (Option.some.inj given).symm
  · intro f planned r mem
    obtain ⟨settings, below⟩ := writable_of_mem_fields writable mem
    exact ExtractionField.ofRow_toRow (texts .extractionField _ (by
      simpa [kept, planned] using ⟨r, mem, rfl⟩)) settings below

end InstallPlan

/-! ## §2. Rows that stay. -/

namespace Database

variable {db after later : Database} {plan : InstallPlan} {entity owner : EntityType}
variable {column s : String}

instance : Decidable (Points entity column owner) :=
  inferInstanceAs (Decidable (_ ∨ ∃ c ∈ entity.layout.columns, _))

/-- What is looked up by the id of a row of a plan, or by its label, are rows of the plan. -/
structure Stores (db : Database) (plan : InstallPlan) : Prop where
  rows : ∀ {entity owner : EntityType} {column s : String}, Points entity column owner →
    (owner, .text s) ∈ plan.rows.map identify → db.having entity column s =
      (plan.kept entity).filter fun row => (entity.cellAt column row).agrees (.text s)
  label : db.having .project "label" plan.label = [plan.project.toRow]

theorem stores_of_write (intact : db.Intact) (h : db.write plan.rows = .ok after) :
    after.Stores plan where
  rows points mine := having_of_planned intact points mine h
  label := by
    have nothing : db.having .project "label" plan.label = [] := by
      refine List.eq_nil_iff_forall_not_mem.2 fun row mem => ?_
      exact free_of_write h ⟨row, mem_having_label_iff.1 mem⟩
    rw [having_of_write h, kept_having_label, if_pos rfl, nothing, List.nil_append]

/-- The rows of a stored plan are found by their ids. -/
theorem Stores.hasId (stores : db.Stores plan)
    (mine : (owner, .text s) ∈ plan.rows.map identify) : db.hasId owner (.text s) = true := by
  obtain ⟨⟨_, row⟩, mem, same⟩ := List.mem_map.1 mine
  obtain ⟨rfl, id⟩ := Prod.mk.inj same
  rw [hasId_iff_having, stores.rows (.inl ⟨rfl, rfl⟩) mine]
  refine List.ne_nil_of_mem (a := row.map Cell.settled) (List.mem_filter.2 ⟨?_, ?_⟩)
  · exact InstallPlan.mem_kept.2 ⟨row, mem, rfl⟩
  · rw [EntityType.cellAt_map_settled, id]
    exact Cell.agrees_text_iff.2 rfl

/-- **A stored plan stays stored, whatever happens.** -/
theorem Stores.leadsTo (stores : db.Stores plan) (sound : db.Sound) (leads : LeadsTo db later) :
    later.Stores plan := by
  have keeps : db.Keeps later := .leadsTo sound leads
  constructor
  · intro entity owner column s points mine
    rw [keeps.rows points (stores.hasId mine), stores.rows points mine]
  · have known : db.HasLabel plan.label := by
      rw [hasLabel_iff_having, stores.label]
      exact List.cons_ne_nil _ _
    rw [keeps.labels known, stores.label]

/-! ## §3. Lists in the order of positions. -/

section Lists

variable {α : Type} {toRow : α → Row} {items : List α}

theorem filter_one {row : Row} (owned : entity.cellAt column row = .text s) :
    ([row].filter fun row => (entity.cellAt column row).agrees (.text s)) = [row] :=
  List.filter_eq_self.2 (List.forall_mem_singleton.2 (Cell.agrees_text_iff.2 owned))

/-- Rows made of the entries of a list, when all have one owner. -/
theorem filter_made_all
    (owned : ∀ r ∈ items, entity.cellAt column (toRow r) = .text s) :
    ((items.map toRow).filter fun row => (entity.cellAt column row).agrees (.text s)) =
      items.map toRow := by
  refine List.filter_eq_self.2 fun row mem => ?_
  obtain ⟨r, there, rfl⟩ := List.mem_map.1 mem
  exact Cell.agrees_text_iff.2 (owned r there)

/-- Rows made of the entries of a list, those of one owner among them. -/
theorem filter_made_of {ownerOf : α → String}
    (owned : ∀ r, entity.cellAt column (toRow r) = .text (ownerOf r)) :
    ((items.map toRow).filter fun row => (entity.cellAt column row).agrees (.text s)) =
      (items.filter fun r => ownerOf r = s).map toRow := by
  rw [List.filter_map]
  refine congrArg _ (List.filter_congr fun r _ => ?_)
  show (entity.cellAt column (toRow r)).agrees (.text s) = _
  rw [owned]
  exact Bool.eq_iff_iff.2 (by simp [Cell.agrees_text_iff])

theorem le_ofU32_iff {m n : UInt32} : (Cell.ofU32 m).le (.ofU32 n) = true ↔ m ≤ n := by
  simp [Cell.ofU32, Cell.le, Cell.rank, Cell.numerator, Cell.denominator,
    UInt32.le_iff_toNat_le]

/-- Rows that come with ascending positions are in order. -/
theorem orderedBy_position {place : α → UInt32}
    (placed : ∀ r, entity.cellAt "position" (toRow r) = .ofU32 (place r))
    (ascending : items.Pairwise fun a b => place a ≤ place b) :
    orderedBy entity "position" (items.map toRow) = items.map toRow := by
  refine List.mergeSort_of_pairwise (List.pairwise_map.2 (ascending.imp fun before => ?_))
  rw [placed, placed]
  exact le_ofU32_iff.2 before

/-- **The rows of one owner are listed in the order in which they were planned.** -/
theorem listed_of_made {read : Row → Except DatabaseError α} {back : α → α} {place : α → UInt32}
    (rows : db.having entity column s = items.map toRow)
    (placed : ∀ r, entity.cellAt "position" (toRow r) = .ofU32 (place r))
    (ascending : items.Pairwise fun a b => place a ≤ place b)
    (reads : ∀ r ∈ items, read (toRow r) = .ok (back r)) :
    (db.ownedBy entity column s).mapM read = .ok (items.map back) := by
  rw [ownedBy, rows, orderedBy_position placed ascending, List.mapM_map]
  exact mapM_eq_ok_map reads

end Lists

/-! ## §4. Questions and answers. -/

/-- Every question about the project of a plan is answered with rows of the plan, in the
order of the plan; a description that is empty is none, and a zero has no sign. -/
structure Answers (db : Database) (plan : InstallPlan) : Prop where
  found : ∀ s, Text.lowercase s = plan.label →
    db.findProject s = .ok (some plan.project.restored)
  project : db.project plan.project.id = .ok plan.project.restored
  members : db.membersOf plan.project.id = .ok [plan.member]
  config : db.configOf plan.project.id = .ok plan.config
  reports : db.reportsOf plan.project.id = .ok plan.config.protocol.reports
  criteria : db.criteriaOf plan.project.id = .ok plan.criteria
  phases : db.phasesOf plan.project.id = .ok (plan.phases.map ScreeningPhase.restored)
  template : db.templateOf plan.project.id =
    .ok (plan.quality.map fun q => q.template.restored)
  questions : ∀ q, plan.quality = some q → db.questionsOf q.template.id = .ok q.questions
  options : ∀ q, plan.quality = some q → ∀ question ∈ q.questions,
    db.optionsOf question.id =
      .ok ((q.options.filter fun r => r.questionId = question.id).map QaOption.restored)
  form : db.formOf plan.project.id = .ok plan.form
  fields : ∀ f, plan.form = some f → db.fieldsOf f.id = .ok plan.fields

section Answers

variable (stores : db.Stores plan) (coherent : plan.IsCoherent) (readable : plan.IsReadable)

include stores

theorem Stores.having_project (points : Points entity column .project) :
    db.having entity column plan.project.id = (plan.kept entity).filter fun row =>
      (entity.cellAt column row).agrees (.text plan.project.id) := by
  have mem : (EntityType.project, plan.project.toRow) ∈ plan.rows := by
    simp [InstallPlan.rows]
  exact stores.rows points (List.mem_map_of_mem mem)

theorem Stores.having_itself :
    db.having .project "id" plan.project.id = [plan.project.toRow] := by
  rw [stores.having_project (.inl ⟨rfl, rfl⟩)]
  exact filter_one rfl

include coherent in
theorem Stores.having_member :
    db.having .projectMember "project_id" plan.project.id = [plan.member.toRow] := by
  rw [stores.having_project (by decide)]
  exact filter_one (congrArg Cell.text coherent.member)

include coherent in
theorem Stores.having_config :
    db.having .projectConfig "project_id" plan.project.id = [plan.config.toRow] := by
  rw [stores.having_project (by decide)]
  exact filter_one (congrArg Cell.text coherent.config)

include coherent in
theorem Stores.having_criteria :
    db.having .exclusionCriterion "project_id" plan.project.id =
      plan.criteria.map ExclusionCriterion.toRow := by
  rw [stores.having_project (by decide)]
  exact filter_made_all fun r mem => congrArg Cell.text (coherent.criteria r mem)

include coherent in
theorem Stores.having_phases :
    db.having .screeningPhase "project_id" plan.project.id =
      plan.phases.map ScreeningPhase.toRow := by
  rw [stores.having_project (by decide)]
  exact filter_made_all fun r mem => congrArg Cell.text (coherent.phases r mem)

include coherent in
theorem Stores.having_template :
    db.having .qaTemplate "project_id" plan.project.id =
      plan.quality.toList.map fun q => q.template.restored.toRow := by
  rw [stores.having_project (by decide)]
  refine filter_made_all fun q mem => ?_
  exact congrArg Cell.text (coherent.template q (Option.mem_toList.1 mem))

include coherent in
theorem Stores.having_form :
    db.having .extractionForm "project_id" plan.project.id =
      plan.form.toList.map ExtractionForm.toRow := by
  rw [stores.having_project (by decide)]
  refine filter_made_all fun f mem => ?_
  exact congrArg Cell.text (coherent.form f (Option.mem_toList.1 mem))

include coherent in
theorem Stores.having_fields {f : ExtractionForm} (planned : plan.form = some f) :
    db.having .extractionField "form_id" f.id = plan.fields.map ExtractionField.toRow := by
  have mem : (EntityType.extractionForm, f.toRow) ∈ plan.rows := by
    simp [InstallPlan.rows, InstallPlan.formRows, planned]
  have kept : plan.kept .extractionField = plan.fields.map ExtractionField.toRow := by
    simp [InstallPlan.kept, planned]
  have points : Points .extractionField "form_id" .extractionForm := by decide
  rw [stores.rows points (List.mem_map_of_mem mem), kept]
  exact filter_made_all fun r mem => congrArg Cell.text (coherent.fields f planned r mem)

include readable

theorem Stores.findProject_eq (same : Text.lowercase s = plan.label) :
    db.findProject s = .ok (some plan.project.restored) := by
  rw [findProject, same, stores.label, atMostOne, readable.project]
  rfl

theorem Stores.project_eq : db.project plan.project.id = .ok plan.project.restored := by
  rw [Database.project, stores.having_itself, one]
  exact readable.project

theorem Stores.optionsOf_eq (numbered : plan.IsNumbered (· ≤ ·)) {q : QualityPlan}
    (planned : plan.quality = some q) {question : QaQuestion} (among : question ∈ q.questions) :
    db.optionsOf question.id =
      .ok ((q.options.filter fun r => r.questionId = question.id).map QaOption.restored) := by
  have mem : (EntityType.qaQuestion, question.toRow) ∈ plan.rows := by
    have there : (EntityType.qaQuestion, question.toRow) ∈
        q.questions.map fun r => (EntityType.qaQuestion, r.toRow) := List.mem_map_of_mem among
    simp [InstallPlan.rows, InstallPlan.qualityRows, planned, there]
  have rows : db.having .qaOption "question_id" question.id =
      (q.options.filter fun r => r.questionId = question.id).map (·.restored.toRow) := by
    have kept : plan.kept .qaOption = q.options.map (·.restored.toRow) := by
      simp [InstallPlan.kept, planned]
    have points : Points .qaOption "question_id" .qaQuestion := by decide
    rw [stores.rows points (List.mem_map_of_mem mem), kept]
    exact filter_made_of fun _ => rfl
  -- options of one question ascend, whatever stands between them
  have ascending : (q.options.filter fun r => r.questionId = question.id).Pairwise
      fun a b => a.position ≤ b.position := by
    refine List.pairwise_filter.2 ((numbered.options q planned).imp fun before left right => ?_)
    exact before ((of_decide_eq_true left).trans (of_decide_eq_true right).symm)
  exact listed_of_made rows (fun _ => rfl) ascending
    fun r mem => readable.options q planned r (List.mem_of_mem_filter mem)

include coherent

theorem Stores.membersOf_eq : db.membersOf plan.project.id = .ok [plan.member] := by
  have alone : ∀ column, orderedBy .projectMember column [plan.member.toRow] =
      [plan.member.toRow] := fun _ => List.mergeSort_singleton _
  rw [membersOf, stores.having_member coherent, alone, alone, List.mapM_cons, readable.member]
  rfl

theorem Stores.configOf_eq : db.configOf plan.project.id = .ok plan.config := by
  rw [configOf, stores.having_config coherent, one]
  exact readable.config

theorem Stores.templateOf_eq :
    db.templateOf plan.project.id = .ok (plan.quality.map fun q => q.template.restored) := by
  rw [templateOf, stores.having_template coherent]
  cases planned : plan.quality with
  | none => rfl
  | some q =>
    show (QaTemplate.ofRow q.template.restored.toRow).map some = _
    rw [readable.template q planned]
    rfl

theorem Stores.formOf_eq : db.formOf plan.project.id = .ok plan.form := by
  rw [formOf, stores.having_form coherent]
  cases planned : plan.form with
  | none => rfl
  | some f =>
    show (ExtractionForm.ofRow f.toRow).map some = _
    rw [readable.form f planned]
    rfl

variable (numbered : plan.IsNumbered (· ≤ ·))

include numbered

theorem Stores.criteriaOf_eq : db.criteriaOf plan.project.id = .ok plan.criteria := by
  have listed := listed_of_made (stores.having_criteria coherent) (fun _ => rfl)
    numbered.criteria readable.criteria
  rwa [List.map_id'] at listed

theorem Stores.phasesOf_eq :
    db.phasesOf plan.project.id = .ok (plan.phases.map ScreeningPhase.restored) := by
  exact listed_of_made (stores.having_phases coherent) (fun _ => rfl) numbered.phases
    readable.phases

theorem Stores.questionsOf_eq {q : QualityPlan} (planned : plan.quality = some q) :
    db.questionsOf q.template.id = .ok q.questions := by
  have mem : (EntityType.qaTemplate, q.template.toRow) ∈ plan.rows := by
    simp [InstallPlan.rows, InstallPlan.qualityRows, planned]
  have rows : db.having .qaQuestion "template_id" q.template.id =
      q.questions.map QaQuestion.toRow := by
    have kept : plan.kept .qaQuestion = q.questions.map QaQuestion.toRow := by
      simp [InstallPlan.kept, planned]
    have points : Points .qaQuestion "template_id" .qaTemplate := by decide
    rw [stores.rows points (List.mem_map_of_mem mem), kept]
    exact filter_made_all fun r mem => congrArg Cell.text (coherent.questions q planned r mem)
  have listed := listed_of_made rows (fun _ => rfl) (numbered.questions q planned)
    (readable.questions q planned)
  rwa [List.map_id'] at listed

theorem Stores.fieldsOf_eq {f : ExtractionForm} (planned : plan.form = some f) :
    db.fieldsOf f.id = .ok plan.fields := by
  have listed := listed_of_made (stores.having_fields coherent planned) (fun _ => rfl)
    numbered.fields (readable.fields f planned)
  rwa [List.map_id'] at listed

/-- **A stored plan answers every question about its project.** -/
theorem Stores.answers : db.Answers plan where
  found _ same := stores.findProject_eq readable same
  project := stores.project_eq readable
  members := stores.membersOf_eq coherent readable
  config := stores.configOf_eq coherent readable
  reports := by
    rw [reportsOf, stores.configOf_eq coherent readable]
    rfl
  criteria := stores.criteriaOf_eq coherent readable numbered
  phases := stores.phasesOf_eq coherent readable numbered
  template := stores.templateOf_eq coherent readable
  questions _ planned := stores.questionsOf_eq coherent readable numbered planned
  options _ planned _ among := stores.optionsOf_eq readable numbered planned among
  form := stores.formOf_eq coherent readable
  fields _ planned := stores.fieldsOf_eq coherent readable numbered planned

end Answers

/-! ## §5. What is installed is what is read back. -/

variable {by_ : Provision} {document : Json} {user : String} {p : ReviewProtocol}
variable {result : InstallResult}

/-- An installation that goes well carries the plan of the protocol out. -/
theorem write_of_install (installed : (db.install by_ p user).2 = .ok result) :
    db.write (InstallPlan.of by_ p user).rows = .ok (db.install by_ p user).1 ∧
      result = (InstallPlan.of by_ p user).result := by
  have applied : db.install by_ p user = db.apply (InstallPlan.of by_ p user) := by
    -- the label was looked up first, and was free
    unfold Database.install at installed ⊢
    split at installed
    next => cases installed
    next => cases installed
    next => rw [InstallPlan.build_eq]
  rw [applied] at installed ⊢
  unfold apply at installed ⊢
  cases written : db.write (InstallPlan.of by_ p user).rows with
  | error broken =>
    rw [written] at installed
    cases installed
  | ok after =>
    rw [written] at installed
    cases installed
    exact ⟨rfl, rfl⟩

/-- A document that is accepted and installed leaves the plan of its protocol behind, and the
plan stays stored; the protocol is one that can be read from its text. -/
theorem stores_of_installDocument (reachable : db.Reachable) (clock : by_.now.IsClock)
    (proper : document.IsProper) (shallow : document.depth < Scan.levelLimit)
    (accepted : Validator.validate document = .ok p)
    (installed : (db.installDocument by_ document user).2 = .ok result)
    (leads : LeadsTo (db.installDocument by_ document user).1 later) :
    db.write (InstallPlan.of by_ p user).rows = .ok (db.installDocument by_ document user).1 ∧
      result = (InstallPlan.of by_ p user).result ∧ p.IsWritable Scan.levelLimit ∧
        later.Sound ∧ later.Stores (InstallPlan.of by_ p user) := by
  have same : db.installDocument by_ document user = db.install by_ p user := by
    rw [installDocument, accepted]
  rw [same] at installed leads ⊢
  obtain ⟨written, told⟩ := write_of_install installed
  have writable : p.IsWritable Scan.levelLimit :=
    ReviewProtocol.isWritable_of_decode proper.hasProperNumbers shallow (by decide)
      (Validator.validate_eq_ok_iff.1 accepted).2
  have sound := reachable.sound
  have after : (db.install by_ p user).1.Sound :=
    sound.write (InstallPlan.hasFiniteScores_of writable.finite) clock written
  exact ⟨written, told, writable, after.leadsTo leads,
    (stores_of_write sound.intact written).leadsTo after leads⟩

theorem isProper_smallProtocol : smallProtocol.encode.IsProper := by
  decide +kernel

theorem accepted_smallProtocol :
    Validator.validate smallProtocol.encode = .ok smallProtocol := by
  refine Validator.validate_eq_ok_iff.2 ⟨?_, rfl⟩
  rw [Validator.errors, Validator.grammarErrors, ProtocolGrammar.grammar_eq]
  decide +kernel

theorem hasWholeTexts_smallProtocol :
    (InstallPlan.of countingProvision smallProtocol "ada").HasWholeTexts := by
  have config : (InstallPlan.of countingProvision smallProtocol "ada").config.toRow.HasWholeTexts :=
    InstallPlan.hasWholeTexts_config isProper_smallProtocol
  -- the protocol on one line is long, the other rows are read out
  refine InstallPlan.forall_rows (by decide +kernel) (by decide +kernel) config
    (by decide +kernel) (by decide +kernel) ?_ ?_ ?_ ?_ ?_
  all_goals rintro x ⟨⟩
  all_goals decide +kernel

theorem install_smallDocument :
    (installDocument {} countingProvision smallProtocol.encode "ada").2 =
      .ok (InstallPlan.of countingProvision smallProtocol "ada").result := by
  have bounds : smallProtocol.WithinBounds := by
    rintro s ⟨⟩
    exact ⟨by decide, by rintro n ⟨⟩; decide⟩
  have free : ¬({} : Database).HasLabel smallProtocol.label := by
    rintro ⟨row, ⟨⟩, _⟩
  rw [installDocument, accepted_smallProtocol]
  exact install_of_label_free sound_empty hasPositions_smallProtocol bounds
    (hasFreshIds_smallProtocol (InstallPlan.build_eq ..)) free

end Database

end LiteratureReview
