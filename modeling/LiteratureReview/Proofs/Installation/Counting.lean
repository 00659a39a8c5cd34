/-
  LiteratureReview.Proofs.Installation.Counting
  ─────────────────────────────────────────────
  A summary counts what the listings list.

  A summary joins tables by the ids that are stored; the listings are followed from
  the project to its template, from the template to its questions, and from each
  question to its options, by the ids that are read.  The two come to the same because
  of the constraints: a project has one template and one form at most
  (`length_having_le_one`), and every row belongs to exactly one row of the table above
  (`belongingTo_perm`).

  An id is read as far as its first NUL only.  Where it has none, counting and listing
  agree in every database that meets the constraints (`counts_agree`); where it has one,
  what belongs to the row is counted, but cannot be listed (`counted_but_not_listed`).
-/
import LiteratureReview.Proofs.Installation.Ownership
import LiteratureReview.Proofs.Installation.Race

namespace LiteratureReview

open Database EntityType

/-! ## §1. Rows with the ids that are read. -/

namespace Database

/-- The kinds of rows whose ids are followed to what belongs to them. -/
def followed : List EntityType := [.project, .qaTemplate, .qaQuestion, .extractionForm]

/-- The ids that are followed are read as they are stored: none is cut off at a NUL. -/
def HasWholeIds (db : Database) : Prop :=
  ∀ entity ∈ followed, ∀ row ∈ db.rows entity, Row.isWhole (entity.cellAt "id" row) = true

instance (db : Database) : Decidable db.HasWholeIds :=
  inferInstanceAs (Decidable (∀ entity ∈ followed, ∀ row ∈ db.rows entity, _ = true))

/-- Rows have the ids of some records, one by one. -/
def HaveIds {α : Type} (entity : EntityType) (idOf : α → String) (rows : List Row)
    (records : List α) : Prop :=
  List.Forall₂ (fun row r => entity.cellAt "id" row = .text (idOf r)) rows records

section Reading

variable {α : Type} {db : Database} {entity owner : EntityType} {column s : String}
variable {row : Row} {rows : List Row} {records : List α} {idOf : α → String}
variable {read : Row → Except DatabaseError α}

theorem HasWholeIds.id_of_text (whole : db.HasWholeIds) (known : entity ∈ followed)
    (mem : row ∈ db.rows entity) (text : row.text 0 = .ok s) :
    entity.cellAt "id" row = .text s := by
  obtain ⟨t, there, rfl⟩ := Row.cell_of_text text
  have id : entity.cellAt "id" row = .text t := (entity.cellAt_id row).trans there
  have same := whole entity known row mem
  rw [id] at same
  rw [id, eq_of_beq same]

/-- Rows of a table that are read have the ids of what is read. -/
theorem HasWholeIds.haveIds (whole : db.HasWholeIds) (known : entity ∈ followed)
    (named : ∀ {row : Row} {r : α}, read row = .ok r → row.text 0 = .ok (idOf r))
    (stored : rows ⊆ db.rows entity) (h : rows.mapM read = .ok records) :
    HaveIds entity idOf rows records := by
  have both := (List.forall₂_and_left _ _).2 ⟨stored, forall₂_of_mapM h⟩
  exact both.imp fun _ _ ⟨mem, done⟩ => whole.id_of_text known mem (named done)

/-- What belongs to rows is what is found by their ids. -/
theorem HaveIds.belongingTo (ids : HaveIds owner idOf rows records) :
    db.belongingTo entity column owner rows =
      records.flatMap fun r => db.having entity column (idOf r) := by
  induction ids with
  | nil => rfl
  | @cons row r rows records id _ ih =>
    show (db.rows entity).filter (fun child => (entity.cellAt column child).agrees
      (owner.cellAt "id" row)) ++ db.belongingTo entity column owner rows = _
    rw [ih, id, List.flatMap_cons]
    rfl

theorem having_subset : db.having entity column s ⊆ db.rows entity :=
  List.filter_subset_self _

theorem ownedBy_perm : (db.ownedBy entity column s).Perm (db.having entity column s) :=
  List.mergeSort_perm ..

theorem ownedBy_subset : db.ownedBy entity column s ⊆ db.rows entity :=
  fun _ mem => having_subset (ownedBy_perm.mem_iff.1 mem)

/-- A listing has as many entries as there are rows. -/
theorem length_listed (h : (db.ownedBy entity column s).mapM read = .ok records) :
    records.length = (db.having entity column s).length :=
  (forall₂_of_mapM h).length_eq.symm.trans ownedBy_perm.length_eq

end Reading

/-! ## §2. Counting and listing what belongs to a project. -/

/-- The number of rows of a table. -/
def countRows (db : Database) (entity : EntityType) : Nat := (db.rows entity).length

theorem counts_eq_map_countRows (db : Database) : db.counts = EntityType.all.map db.countRows :=
  rfl

/-- The questions of a project: those of its template, if there is one. -/
def questionsIn (db : Database) (projectId : String) : Except DatabaseError (List QaQuestion) := do
  match ← db.templateOf projectId with
  | some t => db.questionsOf t.id
  | none => return []

/-- The options of each question of a project. -/
def optionsIn (db : Database) (projectId : String) :
    Except DatabaseError (List (List QaOption)) := do
  (← db.questionsIn projectId).mapM fun q => db.optionsOf q.id

/-- The fields of a project: those of its form, if there is one. -/
def fieldsIn (db : Database) (projectId : String) :
    Except DatabaseError (List ExtractionField) := do
  match ← db.formOf projectId with
  | some f => db.fieldsOf f.id
  | none => return []

/-- The rows that a summary counts as the questions of a project. -/
def questionRows (db : Database) (projectId : String) : List Row :=
  db.belongingTo .qaQuestion "template_id" .qaTemplate
    (db.having .qaTemplate "project_id" projectId)

/-- The rows that a summary counts as the options of a project. -/
def optionRows (db : Database) (projectId : String) : List Row :=
  db.belongingTo .qaOption "question_id" .qaQuestion (db.questionRows projectId)

/-- The rows that a summary counts as the fields of a project. -/
def fieldRows (db : Database) (projectId : String) : List Row :=
  db.belongingTo .extractionField "form_id" .extractionForm
    (db.having .extractionForm "project_id" projectId)

end Database

/-- What the reads of a project give: its summary, and everything that can be listed. -/
structure Inventory where
  summary : ProjectSummary
  criteria : List ExclusionCriterion
  phases : List ScreeningPhase
  questions : List QaQuestion
  options : List (List QaOption)
  fields : List ExtractionField
  reports : List Report

/-- Read everything about a project. -/
def Database.inventoryOf (db : Database) (projectId : String) :
    Except DatabaseError Inventory := do
  return {
    summary := ← db.summaryOf projectId
    criteria := ← db.criteriaOf projectId
    phases := ← db.phasesOf projectId
    questions := ← db.questionsIn projectId
    options := ← db.optionsIn projectId
    fields := ← db.fieldsIn projectId
    reports := ← db.reportsOf projectId }

/-- What is read of a project, one read at a time. -/
structure Inventory.IsReadOf (i : Inventory) (db : Database) (projectId : String) : Prop where
  summary : db.summaryOf projectId = .ok i.summary
  criteria : db.criteriaOf projectId = .ok i.criteria
  phases : db.phasesOf projectId = .ok i.phases
  questions : db.questionsIn projectId = .ok i.questions
  options : db.optionsIn projectId = .ok i.options
  fields : db.fieldsIn projectId = .ok i.fields
  reports : db.reportsOf projectId = .ok i.reports

/-- The summary has counted what is listed. -/
structure Inventory.Agrees (i : Inventory) : Prop where
  criteria : i.summary.exclusionCriteria = i.criteria.length
  phases : i.summary.screeningPhases = i.phases.length
  questions : i.summary.qaQuestions = i.questions.length
  options : i.summary.qaOptions = (i.options.map List.length).sum
  fields : i.summary.extractionFields = i.fields.length
  reports : i.summary.reports = i.reports.length

/-- The tables have as many rows as some summaries count together. -/
structure Database.IsTotalOf (db : Database) (summaries : List ProjectSummary) : Prop where
  criteria : db.countRows .exclusionCriterion = (summaries.map (·.exclusionCriteria)).sum
  phases : db.countRows .screeningPhase = (summaries.map (·.screeningPhases)).sum
  questions : db.countRows .qaQuestion = (summaries.map (·.qaQuestions)).sum
  options : db.countRows .qaOption = (summaries.map (·.qaOptions)).sum
  fields : db.countRows .extractionField = (summaries.map (·.extractionFields)).sum

namespace Database

/-- What a summary counts. -/
structure Counts (db : Database) (projectId : String) (s : ProjectSummary) : Prop where
  criteria :
    s.exclusionCriteria = (db.having .exclusionCriterion "project_id" projectId).length
  phases : s.screeningPhases = (db.having .screeningPhase "project_id" projectId).length
  questions : s.qaQuestions = (db.questionRows projectId).length
  options : s.qaOptions = (db.optionRows projectId).length
  fields : s.extractionFields = (db.fieldRows projectId).length
  reports : ∀ listed, db.reportsOf projectId = .ok listed → s.reports = listed.length

variable {db : Database} {projectId : String}

theorem counts_of_summaryOf {s : ProjectSummary} (h : db.summaryOf projectId = .ok s) :
    db.Counts projectId s := by
  obtain ⟨p, -, h⟩ := exists_of_bind_eq_ok h
  obtain ⟨c, config, h⟩ := exists_of_bind_eq_ok h
  cases h
  refine ⟨rfl, rfl, rfl, rfl, rfl, fun listed reports => ?_⟩
  rw [reportsOf, config] at reports
  cases reports
  rfl

/-- Every read of an inventory has gone well. -/
theorem reads_of_inventoryOf {i : Inventory} (h : db.inventoryOf projectId = .ok i) :
    i.IsReadOf db projectId := by
  obtain ⟨summary, summed, h⟩ := exists_of_bind_eq_ok h
  obtain ⟨criteria, excluded, h⟩ := exists_of_bind_eq_ok h
  obtain ⟨phases, screened, h⟩ := exists_of_bind_eq_ok h
  obtain ⟨questions, asked, h⟩ := exists_of_bind_eq_ok h
  obtain ⟨options, offered, h⟩ := exists_of_bind_eq_ok h
  obtain ⟨fields, extracted, h⟩ := exists_of_bind_eq_ok h
  obtain ⟨reports, reported, h⟩ := exists_of_bind_eq_ok h
  cases h
  exact ⟨summed, excluded, screened, asked, offered, extracted, reported⟩

/-- Where there is one row at most, reading the first is reading all. -/
theorem mapM_of_atMostOne {α : Type} {read : Row → Except DatabaseError α} {rows : List Row}
    {found : Option α} (single : rows.length ≤ 1) (h : atMostOne read rows = .ok found) :
    rows.mapM read = .ok found.toList := by
  match rows, single with
  | [], _ =>
    cases h
    rfl
  | [row], _ =>
    obtain ⟨a, done, rfl⟩ := exists_of_map_eq_ok h
    rw [List.mapM_cons, done]
    rfl

theorem map_eq_of_forall₂ {α β γ : Type} {R : α → β → Prop} {as : List α} {bs : List β}
    {f : α → γ} {g : β → γ} (h : List.Forall₂ R as bs) (same : ∀ {a b}, R a b → f a = g b) :
    as.map f = bs.map g := by
  induction h with
  | nil => rfl
  | cons first _ ih => rw [List.map_cons, List.map_cons, same first, ih]

section Projects

variable (valid : db.MeetsConstraints) (whole : db.HasWholeIds)

include valid whole

/-- The questions of a project are read of the rows that its summary counts. -/
theorem rows_of_questionsIn {questions : List QaQuestion}
    (h : db.questionsIn projectId = .ok questions) :
    ∃ rows, rows.Perm (db.questionRows projectId) ∧
      HaveIds .qaQuestion (·.id) rows questions := by
  obtain ⟨found, template, h⟩ := exists_of_bind_eq_ok h
  have single : (db.having .qaTemplate "project_id" projectId).length ≤ 1 :=
    length_having_le_one valid (by decide)
  have ids : HaveIds .qaTemplate (·.id) _ found.toList := whole.haveIds (by decide)
    QaTemplate.text_of_ofRow having_subset (mapM_of_atMostOne single template)
  have counted : db.questionRows projectId = _ := ids.belongingTo
  rw [counted]
  cases found with
  | none =>
    cases h
    exact ⟨[], .nil, .nil⟩
  | some t =>
    refine ⟨db.ownedBy .qaQuestion "template_id" t.id, ?_,
      whole.haveIds (by decide) QaQuestion.text_of_ofRow ownedBy_subset h⟩
    rw [Option.toList_some, List.flatMap_singleton]
    exact ownedBy_perm

theorem length_questionsIn {questions : List QaQuestion}
    (h : db.questionsIn projectId = .ok questions) :
    (db.questionRows projectId).length = questions.length := by
  obtain ⟨rows, counted, ids⟩ := rows_of_questionsIn valid whole h
  exact counted.length_eq.symm.trans ids.length_eq

theorem length_optionsIn {options : List (List QaOption)}
    (h : db.optionsIn projectId = .ok options) :
    (db.optionRows projectId).length = (options.map List.length).sum := by
  obtain ⟨questions, asked, listed⟩ := exists_of_bind_eq_ok h
  obtain ⟨rows, counted, ids⟩ := rows_of_questionsIn valid whole asked
  calc (db.optionRows projectId).length
      = (db.belongingTo .qaOption "question_id" .qaQuestion rows).length :=
        (counted.flatMap_right _).length_eq.symm
    _ = (questions.map fun q => (db.having .qaOption "question_id" q.id).length).sum := by
        rw [ids.belongingTo, List.length_flatMap]
    _ = (options.map List.length).sum := by
        rw [map_eq_of_forall₂ (forall₂_of_mapM listed) fun done => (length_listed done).symm]

theorem length_fieldsIn {fields : List ExtractionField}
    (h : db.fieldsIn projectId = .ok fields) :
    (db.fieldRows projectId).length = fields.length := by
  obtain ⟨found, form, h⟩ := exists_of_bind_eq_ok h
  have single : (db.having .extractionForm "project_id" projectId).length ≤ 1 :=
    length_having_le_one valid (by decide)
  have ids : HaveIds .extractionForm (·.id) _ found.toList := whole.haveIds (by decide)
    ExtractionForm.text_of_ofRow having_subset (mapM_of_atMostOne single form)
  have counted : db.fieldRows projectId = _ := ids.belongingTo
  rw [counted]
  cases found with
  | none =>
    cases h
    rfl
  | some f =>
    rw [Option.toList_some, List.flatMap_singleton]
    exact (length_listed h).symm

/-- **A summary counts what the listings list.** -/
theorem agrees_of_inventoryOf {i : Inventory} (h : db.inventoryOf projectId = .ok i) :
    i.Agrees := by
  have reads := reads_of_inventoryOf h
  have counts := counts_of_summaryOf reads.summary
  exact {
    criteria := counts.criteria.trans (length_listed reads.criteria).symm
    phases := counts.phases.trans (length_listed reads.phases).symm
    questions := counts.questions.trans (length_questionsIn valid whole reads.questions)
    options := counts.options.trans (length_optionsIn valid whole reads.options)
    fields := counts.fields.trans (length_fieldsIn valid whole reads.fields)
    reports := counts.reports i.reports reads.reports }

/-! ## §3. All projects together. -/

variable {projects : List Project} {inventories : List Inventory}

omit valid in
/-- The rows of all projects, in the order in which they are listed. -/
theorem haveIds_allProjects (h : db.allProjects = .ok projects) :
    HaveIds .project (·.id) (orderedBy .project "label" db.projects) projects := by
  refine whole.haveIds (by decide) Project.text_of_ofRow ?_ h
  exact fun _ mem => (List.mergeSort_perm ..).mem_iff.1 mem

/-- What belongs to all projects is the whole table. -/
theorem having_projects_perm (h : db.allProjects = .ok projects) (entity : EntityType)
    (owned : entity.Owned "project_id" .project) :
    (projects.flatMap fun p => db.having entity "project_id" p.id).Perm (db.rows entity) := by
  rw [← (haveIds_allProjects whole h).belongingTo]
  exact belongingTo_perm_of_perm valid owned (List.mergeSort_perm ..)

/-- **The tables have as many rows as all summaries count together.** -/
theorem isTotalOf_inventories (h : db.allProjects = .ok projects)
    (read : projects.mapM (fun p => db.inventoryOf p.id) = .ok inventories) :
    db.IsTotalOf (inventories.map (·.summary)) := by
  have all := having_projects_perm valid whole h
  have questions : (projects.flatMap fun p => db.questionRows p.id).Perm db.questions := by
    unfold questionRows
    rw [← belongingTo_flatMap]
    exact belongingTo_perm_of_perm valid (by decide) (all .qaTemplate (by decide))
  have options : (projects.flatMap fun p => db.optionRows p.id).Perm db.options := by
    unfold optionRows
    rw [← belongingTo_flatMap]
    exact belongingTo_perm_of_perm valid (by decide) questions
  have fields : (projects.flatMap fun p => db.fieldRows p.id).Perm db.fields := by
    unfold fieldRows
    rw [← belongingTo_flatMap]
    exact belongingTo_perm_of_perm valid (by decide) (all .extractionForm (by decide))
  -- what the summaries count are the lengths of these rows, project by project
  have counted {count : ProjectSummary → Nat} {rows : String → List Row} {table : List Row}
      (counts : ∀ {p : Project} {i : Inventory}, db.inventoryOf p.id = .ok i →
        (rows p.id).length = count i.summary)
      (every : (projects.flatMap fun p => rows p.id).Perm table) :
      table.length = ((inventories.map (·.summary)).map count).sum := by
    rw [← every.length_eq, List.length_flatMap, List.map_map]
    exact congrArg List.sum (map_eq_of_forall₂ (forall₂_of_mapM read) counts)
  have summed {p : Project} {i : Inventory} (h : db.inventoryOf p.id = .ok i) :
      db.Counts p.id i.summary := counts_of_summaryOf (reads_of_inventoryOf h).summary
  exact {
    criteria := counted (fun h => (summed h).criteria.symm) (all _ (by decide))
    phases := counted (fun h => (summed h).phases.symm) (all _ (by decide))
    questions := counted (fun h => (summed h).questions.symm) questions
    options := counted (fun h => (summed h).options.symm) options
    fields := counted (fun h => (summed h).fields.symm) fields }

end Projects

/-- **Counting and listing agree** in every database that meets the constraints of its tables
and whose ids have no NUL: for each project that can be read, and over all projects. -/
theorem counts_agree (valid : db.MeetsConstraints) (whole : db.HasWholeIds) :
    (∀ projectId i, db.inventoryOf projectId = .ok i → i.Agrees) ∧
      ∀ projects inventories, db.allProjects = .ok projects →
        projects.mapM (fun p => db.inventoryOf p.id) = .ok inventories →
          db.IsTotalOf (inventories.map (·.summary)) :=
  ⟨fun _ _ read => agrees_of_inventoryOf valid whole read,
    fun _ _ listed read => isTotalOf_inventories valid whole listed read⟩

end Database

/-- A protocol with one question. -/
def assessedProtocol : ReviewProtocol where
  project := ⟨⟨"a", rfl⟩, ⟨"A", by decide⟩, none⟩
  screening := none
  quality := some ⟨[⟨"Q", by decide⟩], [], .ofInt 1⟩
  categories := []
  reporting := none

/-- A protocol whose quality assessment asks nothing. -/
def unassessedProtocol : ReviewProtocol where
  project := ⟨⟨"b", rfl⟩, ⟨"B", by decide⟩, none⟩
  screening := none
  quality := some ⟨[], [], .ofInt 2⟩
  categories := []
  reporting := none

namespace Database

/-- Both protocols, installed. -/
def twoProjects : Database :=
  ((install {} countingProvision assessedProtocol "ada").1.install laterProvision
    unassessedProtocol "ada").1

theorem evolves_twoProjects : Evolves {} twoProjects :=
  .tail (.single (.install _ _ _)) (.install _ _ _)

/-- One of two projects has a question. -/
theorem counts_agree_of_two :
    twoProjects.MeetsConstraints ∧ twoProjects.HasWholeIds ∧
      ∃ projects inventories, twoProjects.allProjects = .ok projects ∧
        projects.mapM (fun p => twoProjects.inventoryOf p.id) = .ok inventories ∧
          inventories.length = 2 ∧ (∀ i ∈ inventories, i.Agrees) ∧
            1 = ((inventories.map (·.summary)).map (·.qaQuestions)).sum := by
  have valid : twoProjects.MeetsConstraints := meetsConstraints_empty.evolves evolves_twoProjects
  have whole : twoProjects.HasWholeIds := by decide +kernel
  have sorted : orderedBy .project "label" twoProjects.projects = twoProjects.projects :=
    List.mergeSort_of_pairwise (by decide +kernel)
  obtain ⟨inventories, read⟩ : ∃ inventories, (twoProjects.projects.mapM Project.ofRow >>=
      fun projects => projects.mapM fun p => twoProjects.inventoryOf p.id) = .ok inventories := by
    simp only [← toOption_eq_some_iff, ← Option.isSome_iff_exists]
    decide +kernel
  obtain ⟨projects, listed, read⟩ := exists_of_bind_eq_ok read
  have all : twoProjects.allProjects = .ok projects := by
    rw [allProjects, sorted]
    exact listed
  have two : twoProjects.projects.length = 2 := by decide +kernel
  have asked : twoProjects.countRows .qaQuestion = 1 := by decide +kernel
  have each := forall₂_of_mapM read
  have agree := counts_agree valid whole
  refine ⟨valid, whole, projects, inventories, all, read, ?_, ?_, ?_⟩
  · rw [← each.length_eq, ← (forall₂_of_mapM listed).length_eq, two]
  · have good := each.flip.imp fun i p done => And.intro (agree.1 _ _ done) trivial
    exact ((List.forall₂_and_left _ _).1 good).1
  · rw [← (agree.2 _ _ all read).questions, asked]

/-- The second template gets an id with a NUL in it, and the question moves there. -/
def afterRenaming : Except EngineError Database := do
  let renamed ← twoProjects.update .qaTemplate "id" (.text "x\x00y") ⟨some ("min_score", .int 2)⟩
  let moved ← renamed.1.update .qaQuestion "template_id" (.text "x\x00y") {}
  return moved.1

/-- **What belongs to a row whose id has a NUL is counted, and not listed**: the question is
looked for at a template called `x`. -/
theorem counted_but_not_listed :
    ∃ db i, Evolves {} db ∧ db.MeetsConstraints ∧
      db.inventoryOf "prj-0000000000000064" = .ok i ∧
        i.summary.qaQuestions = 1 ∧ i.questions = [] := by
  have counted : (afterRenaming.toOption.bind fun db =>
      (db.inventoryOf "prj-0000000000000064").toOption.map
        fun i => (i.summary.qaQuestions, i.questions)) = some (1, []) := by
    decide +kernel
  obtain ⟨db, done, read⟩ := Option.bind_eq_some_iff.1 counted
  obtain ⟨i, inventory, told⟩ := Option.map_eq_some_iff.1 read
  obtain ⟨renamed, first, rest⟩ := exists_of_bind_eq_ok (toOption_eq_some_iff.1 done)
  obtain ⟨moved, second, same⟩ := exists_of_bind_eq_ok rest
  cases same
  have evolves : Evolves {} moved.1 :=
    .tail (.tail evolves_twoProjects (.update first)) (.update second)
  exact ⟨moved.1, i, evolves, meetsConstraints_empty.evolves evolves,
    toOption_eq_some_iff.1 inventory, congrArg Prod.fst told, congrArg Prod.snd told⟩

end Database

end LiteratureReview
