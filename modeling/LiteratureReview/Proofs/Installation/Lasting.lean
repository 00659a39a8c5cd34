/-
  LiteratureReview.Proofs.Installation.Lasting
  ────────────────────────────────────────────
  What an installation leaves alone.

  A plan that has been carried out had ids that were new
  (`freshIds_of_write`), and a new label: the keys of the tables see to
  that.  So the rows it has added are owned by rows of its own, and whatever
  is looked up by the id of an older row, or by an older label, is what it
  was.  One step leaves what was there as it was (`Keeps.step`), and so does
  every sequence of steps (`Keeps.leadsTo`).
-/
import LiteratureReview.Proofs.Installation.Outcome

namespace LiteratureReview

open Database

namespace Database

open EntityType

variable {db after : Database} {writes : List (EntityType × Row)} {plan : InstallPlan}

/-! ## §1. Rows that have been added had new keys. -/

/-- A row that has been added shares none of its keys with the rows before it. -/
theorem sameKey_eq_false_of_insert {entity : EntityType} {row r : Row} {key : List String}
    (h : db.insert entity row = .ok after) (known : key ∈ entity.layout.keys)
    (mem : r ∈ db.rows entity) : entity.sameKey key (entity.convert row) r = false := by
  have unbroken := (insert_ok_iff.1 h).1
  rw [findBroken, Option.or_eq_none_iff, Option.or_eq_none_iff] at unbroken
  rw [Bool.eq_false_iff]
  intro same
  exact findTaken_eq_none_iff.1 unbroken.2.2 r mem ⟨key, known, same⟩

/-- The id is a key of every table. -/
theorem id_mem_keys (entity : EntityType) : ["id"] ∈ entity.layout.keys := by
  cases entity <;> decide

theorem hasId_eq_false_of_insert {entity : EntityType} {row : Row} {s : String}
    (h : db.insert entity row = .ok after) (admits : entity.Admits row)
    (named : entity.cellAt "id" row = .text s) : db.hasId entity (.text s) = false := by
  rw [Bool.eq_false_iff]
  intro taken
  obtain ⟨r, mem, same⟩ := hasId_iff.1 taken
  have apart := sameKey_eq_false_of_insert h (id_mem_keys entity) mem
  have shared : entity.sameKey ["id"] (entity.convert row) r = true := by
    rw [sameKey_singleton, convert_of_admits admits, cellAt_map_settled, named,
      Cell.settled_text, Cell.agrees_comm]
    exact same
  rw [shared] at apart
  cases apart

/-- A row that has been added can be found by its id. -/
theorem hasId_of_insert {entity : EntityType} {row : Row} {s : String}
    (h : db.insert entity row = .ok after) (admits : entity.Admits row)
    (named : entity.cellAt "id" row = .text s) : after.hasId entity (.text s) = true := by
  obtain ⟨_, _, rfl⟩ := insert_ok_iff.1 h
  refine hasId_iff.2 ⟨entity.convert row, ?_, ?_⟩
  · rw [rows_add, if_pos rfl]
    exact List.mem_append_right _ List.mem_cons_self
  · rw [convert_of_admits admits, cellAt_map_settled, named]
    exact Cell.agrees_text_iff.2 rfl

/-- Rows that have been written had ids that were new and differ from each other. -/
theorem fresh_of_write (admits : ∀ w ∈ writes, w.1.Admits w.2)
    (named : ∀ w ∈ writes, ∃ s, w.1.cellAt "id" w.2 = .text s) (h : db.write writes = .ok after) :
    (writes.map identify).Nodup ∧ ∀ ref ∈ writes.map identify, db.hasId ref.1 ref.2 = false := by
  induction writes generalizing db with
  | nil => exact ⟨List.nodup_nil, nofun⟩
  | cons w rest ih =>
    obtain ⟨next, step, behind⟩ := write_cons_ok h
    obtain ⟨s, id⟩ := named w List.mem_cons_self
    have first := admits w List.mem_cons_self
    obtain ⟨distinct, unused⟩ := ih (fun w mem => admits w (List.mem_cons_of_mem _ mem))
      (fun w mem => named w (List.mem_cons_of_mem _ mem)) behind
    have mine : identify w = (w.1, .text s) := by rw [identify, id]
    constructor
    · -- the row in front has its id by the time the others are written
      refine List.nodup_cons.2 ⟨fun again => ?_, distinct⟩
      have free := unused _ again
      rw [mine, hasId_of_insert step first id] at free
      cases free
    · intro ref mem
      rcases List.mem_cons.1 mem with rfl | later
      · rw [mine]
        exact hasId_eq_false_of_insert step first id
      · -- an id that is unused once the first row is there was unused before
        rw [Bool.eq_false_iff]
        intro taken
        have free := unused ref later
        rw [(insert_ok_iff.1 step).2.2, hasId_add taken] at free
        cases free

/-- **A plan that has been carried out had new ids.** -/
theorem freshIds_of_write (h : db.write plan.rows = .ok after) : plan.HasFreshIds db := by
  obtain ⟨distinct, unused⟩ :=
    fresh_of_write (InstallPlan.admits_rows (withinBounds_of_write h)) InstallPlan.named_rows h
  exact ⟨distinct, unused⟩

/-- A project with a label that is taken is refused for its label, whatever else it
shares with other projects: of its keys, the label is looked at first. -/
theorem insert_of_label_taken {p : Project} (taken : db.HasLabel p.label) :
    db.insert .project p.toRow = .error labelConstraint := by
  obtain ⟨r, stored, same⟩ := taken
  have shared : (db.rows .project).any (EntityType.project.sameKey ["label"] p.toRow) = true := by
    refine List.any_eq_true.2 ⟨r, stored, ?_⟩
    rw [sameKey_singleton, same]
    exact Cell.agrees_text_iff.2 rfl
  have found : EntityType.project.findTaken (db.rows .project) p.toRow = some labelConstraint := by
    show List.findSome? _ (["label"] :: [["id"]]) = _
    rw [List.findSome?_cons, if_pos shared]
    rfl
  have broken : EntityType.project.findBroken (db.rows .project)
      (EntityType.project.convert p.toRow) = some labelConstraint := by
    rw [findBroken_of_admits p.admits_toRow, Project.settled_toRow, found]
  unfold insert
  simp only [broken]

theorem write_of_label_taken (taken : db.HasLabel plan.label) :
    db.write plan.rows = .error labelConstraint := by
  have rows : plan.rows = (.project, plan.project.toRow) :: plan.rows.tail := rfl
  rw [rows, write, insert_of_label_taken taken]
  rfl

/-- **A plan that has been carried out had a new label.** -/
theorem free_of_write (h : db.write plan.rows = .ok after) : ¬db.HasLabel plan.label := by
  intro taken
  rw [write_of_label_taken taken] at h
  cases h

/-! ## §2. Rows by the ids in them. -/

/-- A column holds ids of some kind of rows: of the rows themselves, or of rows they
belong to. -/
def Points (entity : EntityType) (column : String) (owner : EntityType) : Prop :=
  column = "id" ∧ owner = entity ∨
    ∃ c ∈ entity.layout.columns, c.name = column ∧ c.owner = some owner

/-- A row with an id in such a column has that id, or refers to the row that has. -/
theorem refers_of_points {entity owner : EntityType} {column : String} {row : Row} {v : Cell}
    (points : Points entity column owner) (whole : row.length = entity.layout.columns.length)
    (there : entity.cellAt column row = v) :
    owner = entity ∧ entity.cellAt "id" row = v ∨ (owner, v) ∈ entity.references row := by
  rcases points with ⟨rfl, same⟩ | ⟨c, mem, rfl, owned⟩
  · exact .inl ⟨same, there⟩
  · refine .inr (mem_references.2 ⟨c, ?_, owned⟩)
    have placed := cellAt_mem_zip mem whole
    rw [there] at placed
    exact placed

/-- Rows of a sound database hold ids of rows that are there. -/
theorem hasId_of_points {entity owner : EntityType} {column s : String} {row : Row}
    (intact : db.Intact) (points : Points entity column owner) (mem : row ∈ db.rows entity)
    (there : entity.cellAt column row = .text s) : db.hasId owner (.text s) = true := by
  rcases refers_of_points points (intact.whole entity row mem) there with ⟨rfl, id⟩ | refers
  · exact hasId_iff.2 ⟨row, mem, Cell.agrees_text_iff.2 id⟩
  · rcases referencesHold_iff.1 (intact.references entity row mem) _ refers with missing | taken
    · cases missing
    · exact taken

/-- Rows of a coherent plan hold ids of rows of the plan. -/
theorem mem_identify_of_points {entity owner : EntityType} {column s : String} {row : Row}
    (coherent : plan.IsCoherent) (points : Points entity column owner)
    (whole : row.length = entity.layout.columns.length) (mem : (entity, row) ∈ plan.rows)
    (there : entity.cellAt column row = .text s) : (owner, .text s) ∈ plan.rows.map identify := by
  rcases refers_of_points points whole there with ⟨rfl, id⟩ | refers
  · exact List.mem_map.2 ⟨_, mem, by rw [identify, id]⟩
  · rcases (InstallPlan.grounded_rows coherent).mem mem refers with missing | known
    · cases missing
    · rwa [List.append_nil] at known

end Database

/-! ## §3. The rows of a plan. -/

namespace InstallPlan

variable {plan : InstallPlan} {entity owner : EntityType} {column s : String}

/-- What every table keeps of a plan. -/
def kept (plan : InstallPlan) : EntityType → List Row
  | .project => [plan.project.toRow]
  | .projectMember => [plan.member.toRow]
  | .projectConfig => [plan.config.toRow]
  | .exclusionCriterion => plan.criteria.map (·.toRow)
  | .screeningPhase => plan.phases.map (·.toRow)
  | .qaTemplate => plan.quality.toList.map (·.template.restored.toRow)
  | .qaQuestion => plan.quality.toList.flatMap fun q => q.questions.map (·.toRow)
  | .qaOption => plan.quality.toList.flatMap fun q => q.options.map (·.restored.toRow)
  | .extractionForm => plan.form.toList.map (·.toRow)
  | .extractionField => plan.form.toList.flatMap fun _ => plan.fields.map (·.toRow)

/-- The rows made of the entries of a list are of one kind. -/
theorem filter_made {α : Type} (kind entity : EntityType) (toRow : α → Row) (items : List α) :
    (items.map fun r => (kind, toRow r)).filter (fun w => w.1 = entity) =
      if kind = entity then items.map fun r => (kind, toRow r) else [] := by
  induction items with
  | nil => simp
  | cons r rest ih =>
    rw [List.map_cons, List.filter_cons, ih]
    by_cases same : kind = entity
    · simp [same]
    · simp [same]

/-- The rows of a kind among those of a plan, as their table keeps them. -/
theorem kept_eq (plan : InstallPlan) (entity : EntityType) :
    (plan.rows.filter fun w => w.1 = entity).map (fun w => w.2.map Cell.settled) =
      plan.kept entity := by
  unfold rows kept
  cases plan.quality <;> cases plan.form <;> cases entity <;>
    simp [qualityRows, formRows, filter_made, Project.settled_toRow, ProjectMember.settled_toRow,
      ProjectConfig.settled_toRow, ExclusionCriterion.settled_toRow, ScreeningPhase.settled_toRow,
      QaTemplate.settled_toRow, QaQuestion.settled_toRow, QaOption.settled_toRow,
      ExtractionForm.settled_toRow, ExtractionField.settled_toRow]

theorem mem_kept {row : Row} :
    row ∈ plan.kept entity ↔
      ∃ given, (entity, given) ∈ plan.rows ∧ given.map Cell.settled = row := by
  rw [← kept_eq]
  simp only [List.mem_map, List.mem_filter, decide_eq_true_eq]
  constructor
  · intro ⟨⟨kind, given⟩, ⟨mem, same⟩, settled⟩
    cases same
    exact ⟨given, mem, settled⟩
  · intro ⟨given, mem, settled⟩
    exact ⟨_, ⟨mem, rfl⟩, settled⟩

/-- Ids in the rows that are kept are ids of rows of the plan. -/
theorem mem_identify_of_mem_kept {row : Row} (coherent : plan.IsCoherent)
    (points : Points entity column owner) (whole : ∀ w ∈ plan.rows, w.1.Admits w.2)
    (mem : row ∈ plan.kept entity) (there : (entity.cellAt column row).agrees (.text s) = true) :
    (owner, .text s) ∈ plan.rows.map identify := by
  obtain ⟨given, planned, rfl⟩ := mem_kept.1 mem
  have text := Cell.agrees_text_iff.1 there
  rw [EntityType.cellAt_map_settled, Cell.settled_eq_text_iff] at text
  exact mem_identify_of_points coherent points (whole _ planned).length_eq.symm planned text

end InstallPlan

/-! ## §4. What a plan adds, and what it leaves alone. -/

namespace Database

open EntityType

variable {db after later : Database} {plan : InstallPlan} {entity owner : EntityType}
variable {column s : String}

theorem rows_of_write (h : db.write plan.rows = .ok after) (entity : EntityType) :
    after.rows entity = db.rows entity ++ plan.kept entity := by
  rw [write_eq_append h, rows_append, ← InstallPlan.kept_eq]
  unfold written
  refine congrArg _ (List.map_congr_left fun w mem => ?_)
  obtain ⟨planned, same⟩ := List.mem_filter.1 mem
  obtain rfl : w.1 = entity := by simpa using same
  exact convert_of_admits (InstallPlan.admits_rows (withinBounds_of_write h) w planned)

theorem having_of_write (h : db.write plan.rows = .ok after) (entity : EntityType)
    (column s : String) :
    after.having entity column s = db.having entity column s ++
      (plan.kept entity).filter fun row => (entity.cellAt column row).agrees (.text s) := by
  unfold having
  rw [rows_of_write h, List.filter_append]

/-- **What is looked up by the id of a row of the plan is in the plan.** -/
theorem having_of_planned (intact : db.Intact) (points : Points entity column owner)
    (mine : (owner, .text s) ∈ plan.rows.map identify) (h : db.write plan.rows = .ok after) :
    after.having entity column s =
      (plan.kept entity).filter fun row => (entity.cellAt column row).agrees (.text s) := by
  rw [having_of_write h]
  have nothing : db.having entity column s = [] := by
    refine List.filter_eq_nil_iff.2 fun row mem there => ?_
    have known := hasId_of_points intact points mem (Cell.agrees_text_iff.1 there)
    rw [(freshIds_of_write h).unused _ mine] at known
    cases known
  rw [nothing, List.nil_append]

/-- **What is looked up by the id of an older row is what it was.** -/
theorem having_of_known (coherent : plan.IsCoherent) (points : Points entity column owner)
    (known : db.hasId owner (.text s) = true) (h : db.write plan.rows = .ok after) :
    after.having entity column s = db.having entity column s := by
  rw [having_of_write h]
  have nothing : ((plan.kept entity).filter fun row =>
      (entity.cellAt column row).agrees (.text s)) = [] := by
    refine List.filter_eq_nil_iff.2 fun row mem there => ?_
    have mine := InstallPlan.mem_identify_of_mem_kept coherent points
      (InstallPlan.admits_rows (withinBounds_of_write h)) mem there
    rw [(freshIds_of_write h).unused _ mine] at known
    cases known
  rw [nothing, List.append_nil]

/-- The projects with a label, among the rows that a plan adds. -/
theorem kept_having_label (plan : InstallPlan) (s : String) :
    ((plan.kept .project).filter fun row =>
      (EntityType.project.cellAt "label" row).agrees (.text s)) =
      if plan.label = s then [plan.project.toRow] else [] := by
  show ([plan.project.toRow].filter fun row =>
    (EntityType.project.cellAt "label" row).agrees (.text s)) = _
  have label : EntityType.project.cellAt "label" plan.project.toRow = .text plan.label := rfl
  rw [List.filter_cons, List.filter_nil, label]
  by_cases same : plan.label = s
  · rw [if_pos same, if_pos]
    exact Cell.agrees_text_iff.2 (congrArg Cell.text same)
  · rw [if_neg same, if_neg]
    intro agrees
    cases Cell.agrees_text_iff.1 agrees
    exact same rfl

/-! ## §5. What was there stays as it was. -/

/-- Whatever can be looked up in one database by the id of one of its rows, or by one of
its labels, is the same in another. -/
structure Keeps (db later : Database) : Prop where
  rows : ∀ {entity owner : EntityType} {column s : String}, Points entity column owner →
    db.hasId owner (.text s) = true → later.having entity column s = db.having entity column s
  labels : ∀ {s : String}, db.HasLabel s →
    later.having .project "label" s = db.having .project "label" s

theorem hasId_iff_having : db.hasId entity (.text s) = true ↔ db.having entity "id" s ≠ [] := by
  rw [hasId_iff, Ne, having, List.filter_eq_nil_iff]
  simp

theorem hasLabel_iff_having : db.HasLabel s ↔ db.having .project "label" s ≠ [] := by
  rw [Ne, List.eq_nil_iff_forall_not_mem]
  simp only [mem_having_label_iff, not_forall, not_not]
  rfl

theorem Keeps.hasId (keeps : db.Keeps later) (known : db.hasId entity (.text s) = true) :
    later.hasId entity (.text s) = true := by
  rw [hasId_iff_having, keeps.rows (.inl ⟨rfl, rfl⟩) known]
  exact hasId_iff_having.1 known

theorem Keeps.hasLabel (keeps : db.Keeps later) (known : db.HasLabel s) : later.HasLabel s := by
  rw [hasLabel_iff_having, keeps.labels known]
  exact hasLabel_iff_having.1 known

theorem Keeps.refl (db : Database) : db.Keeps db :=
  ⟨fun _ _ => rfl, fun _ => rfl⟩

theorem Keeps.trans (first : db.Keeps after) (second : after.Keeps later) : db.Keeps later where
  rows points known := (second.rows points (first.hasId known)).trans (first.rows points known)
  labels known := (second.labels (first.hasLabel known)).trans (first.labels known)

theorem keeps_of_write (coherent : plan.IsCoherent) (h : db.write plan.rows = .ok after) :
    db.Keeps after where
  rows points known := having_of_known coherent points known h
  labels {s} known := by
    have other : plan.label ≠ s := fun same => free_of_write h (same ▸ known)
    rw [having_of_write h, kept_having_label, if_neg other, List.append_nil]

/-- **One step leaves what was there as it was.** -/
theorem Keeps.step (sound : db.Sound) (step : Step db after) : db.Keeps after :=
  step.preserves sound.storable (.refl db) fun _ _ written =>
    keeps_of_write InstallPlan.isCoherent_of written

/-- **Whatever happens to a database leaves what was there as it was.** -/
theorem Keeps.leadsTo (sound : db.Sound) (leads : LeadsTo db later) : db.Keeps later := by
  induction leads with
  | refl => exact .refl db
  | tail before step ih => exact ih.trans (.step (sound.leadsTo before) step)

end Database

end LiteratureReview
