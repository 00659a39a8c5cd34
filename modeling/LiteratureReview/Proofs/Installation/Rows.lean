/-
  LiteratureReview.Proofs.Installation.Rows
  ─────────────────────────────────────────
  The rows of a plan against the constraints of their tables.

  Every column admits what stands in it, bounds on the configuration apart
  (`admits_rows`); the rows of a coherent plan bring their references along
  (`grounded_rows`); and when they are numbered and have ids of their own,
  no two of them share a key (`apart_rows`).
-/
import LiteratureReview.Proofs.Installation.Planning
import LiteratureReview.Proofs.Store.Constraints

namespace LiteratureReview

open Database EntityType

/-! ## §1. Columns. -/

namespace Column

theorem admits_text (name s : String) : (text name).Admits (.text s) :=
  ⟨nofun, rfl, nofun⟩

theorem admits_option_text (name s : String) : (option name).Admits (.text s) :=
  ⟨nofun, rfl, nofun⟩

theorem admits_option (name : String) (o : Option String) : (option name).Admits (.ofOption o) := by
  cases o with
  | none => exact ⟨fun _ => rfl, trivial, nofun⟩
  | some s => exact admits_option_text name s

theorem admits_integer (name : String) (n : UInt32) : (integer name).Admits (.ofU32 n) :=
  ⟨nofun, rfl, nofun⟩

theorem admits_real (name : String) (x : Decimal.Double) : (real name).Admits (.real x) :=
  ⟨nofun, rfl, nofun⟩

theorem admits_flag (name : String) (b : Bool) : (flag name).Admits (.ofBool b) := by
  refine ⟨nofun, rfl, fun k check => ?_⟩
  cases check
  cases b <;> decide

theorem admits_names {name s : String} {allowed : List String} (h : s ∈ allowed) :
    (names name allowed).Admits (.text s) := by
  refine ⟨nofun, rfl, fun k check => ?_⟩
  cases check
  rw [Check.holds, Bool.or_eq_true]
  exact .inr (List.any_eq_true.2 ⟨s, h, beq_self_eq_true s⟩)

theorem admits_belongsTo (name : String) (owner : EntityType) (s : String) :
    (belongsTo name owner).Admits (.text s) :=
  ⟨nofun, rfl, nofun⟩

theorem holds_atLeast_iff {low : Int} {n : UInt32} :
    (Check.atLeast low).holds (.ofU32 n) = true ↔ low ≤ n.toNat := by
  simp [Check.holds, Cell.ofU32, Cell.le, Cell.rank, Cell.numerator, Cell.denominator]

theorem holds_between_iff {low high : Int} {n : UInt32} :
    (Check.between low high).holds (.ofU32 n) = true ↔ low ≤ n.toNat ∧ (n.toNat : Int) ≤ high := by
  simp [Check.holds, Cell.ofU32, Cell.le, Cell.rank, Cell.numerator, Cell.denominator]

/-- The columns with the bounds of a configuration. -/
def reviewers : Column :=
  { name := "review_per_paper", affinity := .integer, check := some (.atLeast 1) }

def percentage : Column :=
  { name := "validation_percentage", affinity := .integer, check := some (.between 0 100) }

/-- The column with the field above a field. -/
def above : Column :=
  { name := "parent_id", affinity := .text, nullable := true, owner := some .extractionField }

theorem admits_reviewers {n : UInt32} (h : 1 ≤ n) : reviewers.Admits (.ofU32 n) := by
  refine ⟨nofun, rfl, fun k check => ?_⟩
  cases check
  have : 1 ≤ n.toNat := UInt32.le_iff_toNat_le.1 h
  exact holds_atLeast_iff.2 (by omega)

theorem admits_percentage {n : UInt32} (h : n ≤ 100) : percentage.Admits (.ofU32 n) := by
  refine ⟨nofun, rfl, fun k check => ?_⟩
  cases check
  have : n.toNat ≤ 100 := UInt32.le_iff_toNat_le.1 h
  exact holds_between_iff.2 (by omega)

theorem admits_above (parent : Option String) : above.Admits (.ofOption parent) := by
  cases parent with
  | none => exact ⟨fun _ => rfl, trivial, nofun⟩
  | some s => exact ⟨nofun, rfl, nofun⟩

end Column

/-! ## §2. Rows that are admitted. -/

open Column List.Forall₂

theorem Project.admits_toRow (r : Project) : EntityType.project.Admits r.toRow :=
  .cons (admits_option_text ..) <| .cons (admits_text ..) <| .cons (admits_text ..) <|
    .cons (admits_option ..) <| .cons (admits_names (by cases r.status; decide)) <|
    .cons (admits_text ..) <| .cons (admits_text ..) .nil

theorem ProjectMember.admits_toRow (r : ProjectMember) : EntityType.projectMember.Admits r.toRow :=
  .cons (admits_option_text ..) <| .cons (admits_belongsTo ..) <| .cons (admits_text ..) <|
    .cons (admits_names (by cases r.role; decide)) <| .cons (admits_text ..) .nil

theorem ExclusionCriterion.admits_toRow (r : ExclusionCriterion) :
    EntityType.exclusionCriterion.Admits r.toRow :=
  .cons (admits_option_text ..) <| .cons (admits_belongsTo ..) <| .cons (admits_text ..) <|
    .cons (admits_integer ..) <| .cons (admits_text ..) .nil

theorem ScreeningPhase.admits_toRow (r : ScreeningPhase) :
    EntityType.screeningPhase.Admits r.toRow :=
  .cons (admits_option_text ..) <| .cons (admits_belongsTo ..) <| .cons (admits_text ..) <|
    .cons (admits_option ..) <| .cons (admits_option ..) <| .cons (admits_integer ..) <|
    .cons (admits_text ..) .nil

theorem QaTemplate.admits_toRow (r : QaTemplate) : EntityType.qaTemplate.Admits r.toRow :=
  .cons (admits_option_text ..) <| .cons (admits_belongsTo ..) <| .cons (admits_real ..) <|
    .cons (admits_text ..) .nil

theorem QaQuestion.admits_toRow (r : QaQuestion) : EntityType.qaQuestion.Admits r.toRow :=
  .cons (admits_option_text ..) <| .cons (admits_belongsTo ..) <| .cons (admits_text ..) <|
    .cons (admits_integer ..) .nil

theorem QaOption.admits_toRow (r : QaOption) : EntityType.qaOption.Admits r.toRow :=
  .cons (admits_option_text ..) <| .cons (admits_belongsTo ..) <| .cons (admits_text ..) <|
    .cons (admits_real ..) <| .cons (admits_flag ..) <| .cons (admits_integer ..) .nil

theorem ExtractionForm.admits_toRow (r : ExtractionForm) :
    EntityType.extractionForm.Admits r.toRow :=
  .cons (admits_option_text ..) <| .cons (admits_belongsTo ..) <| .cons (admits_flag ..) <|
    .cons (admits_option ..) <| .cons (admits_text ..) .nil

theorem ExtractionField.admits_toRow (r : ExtractionField) :
    EntityType.extractionField.Admits r.toRow :=
  .cons (admits_option_text ..) <| .cons (admits_belongsTo ..) <| .cons (admits_text ..) <|
    .cons (admits_text ..) <| .cons (admits_names (by cases r.kind <;> decide)) <|
    .cons (admits_flag ..) <| .cons (admits_integer ..) <| .cons (admits_text ..) <|
    .cons (admits_above ..) .nil

/-- A configuration with bounds that the table accepts. -/
def ProjectConfig.WithinBounds (c : ProjectConfig) : Prop :=
  1 ≤ c.reviewPerPaper ∧ c.validationPercentage ≤ 100

theorem ProjectConfig.admits_toRow {c : ProjectConfig} (h : c.WithinBounds) :
    EntityType.projectConfig.Admits c.toRow :=
  .cons (admits_option_text ..) <| .cons (admits_belongsTo ..) <| .cons (admits_flag ..) <|
    .cons (admits_flag ..) <| .cons (admits_flag ..) <|
    .cons (admits_names (by cases c.conflictType <;> decide)) <|
    .cons (admits_names (by cases c.conflictResolution <;> decide)) <|
    .cons (admits_reviewers h.1) <| .cons (admits_percentage h.2) <| .cons (admits_flag ..) <|
    .cons (admits_names (by cases c.assignmentMode <;> decide)) <| .cons (admits_flag ..) <|
    .cons (admits_flag ..) <| .cons (admits_text ..) <| .cons (admits_text ..) .nil

/-- A configuration out of bounds is not written. -/
theorem ProjectConfig.withinBounds_of_insert {db after : Database} {c : ProjectConfig}
    (h : db.insert .projectConfig c.toRow = .ok after) : c.WithinBounds := by
  have low : (Check.atLeast 1).holds (.ofU32 c.reviewPerPaper) = true :=
    holds_of_insert (c := reviewers) h (List.mem_of_getElem? (i := 7) rfl) rfl
  have high : (Check.between 0 100).holds (.ofU32 c.validationPercentage) = true :=
    holds_of_insert (c := percentage) h (List.mem_of_getElem? (i := 8) rfl) rfl
  rw [holds_atLeast_iff] at low
  rw [holds_between_iff] at high
  constructor
  · rw [UInt32.le_iff_toNat_le, UInt32.toNat_one]
    omega
  · refine UInt32.le_iff_toNat_le.2 (show _ ≤ 100 from ?_)
    omega

/-! ## §3. What rows refer to. -/

theorem ProjectMember.references_toRow (r : ProjectMember) :
    EntityType.projectMember.references r.toRow = [(.project, .text r.projectId)] := rfl

theorem ProjectConfig.references_toRow (r : ProjectConfig) :
    EntityType.projectConfig.references r.toRow = [(.project, .text r.projectId)] := rfl

theorem ExclusionCriterion.references_toRow (r : ExclusionCriterion) :
    EntityType.exclusionCriterion.references r.toRow = [(.project, .text r.projectId)] := rfl

theorem ScreeningPhase.references_toRow (r : ScreeningPhase) :
    EntityType.screeningPhase.references r.toRow = [(.project, .text r.projectId)] := rfl

theorem QaTemplate.references_toRow (r : QaTemplate) :
    EntityType.qaTemplate.references r.toRow = [(.project, .text r.projectId)] := rfl

theorem QaQuestion.references_toRow (r : QaQuestion) :
    EntityType.qaQuestion.references r.toRow = [(.qaTemplate, .text r.templateId)] := rfl

theorem QaOption.references_toRow (r : QaOption) :
    EntityType.qaOption.references r.toRow = [(.qaQuestion, .text r.questionId)] := rfl

theorem ExtractionForm.references_toRow (r : ExtractionForm) :
    EntityType.extractionForm.references r.toRow = [(.project, .text r.projectId)] := rfl

theorem ExtractionField.references_toRow (r : ExtractionField) :
    EntityType.extractionField.references r.toRow =
      [(.extractionForm, .text r.formId), (.extractionField, .ofOption r.parentId)] := rfl

/-! ## §4. All rows of a plan. -/

namespace InstallPlan

variable {plan : InstallPlan}

/-- What holds of the rows of every kind holds of all rows. -/
theorem forall_rows {P : EntityType × Row → Prop} (project : P (.project, plan.project.toRow))
    (member : P (.projectMember, plan.member.toRow))
    (config : P (.projectConfig, plan.config.toRow))
    (criteria : ∀ r ∈ plan.criteria, P (.exclusionCriterion, r.toRow))
    (phases : ∀ r ∈ plan.phases, P (.screeningPhase, r.toRow))
    (template : ∀ q, plan.quality = some q → P (.qaTemplate, q.template.toRow))
    (questions : ∀ q, plan.quality = some q → ∀ r ∈ q.questions, P (.qaQuestion, r.toRow))
    (options : ∀ q, plan.quality = some q → ∀ r ∈ q.options, P (.qaOption, r.toRow))
    (form : ∀ f, plan.form = some f → P (.extractionForm, f.toRow))
    (fields : ∀ f, plan.form = some f → ∀ r ∈ plan.fields, P (.extractionField, r.toRow)) :
    ∀ w ∈ plan.rows, P w := by
  intro w mem
  simp only [rows, List.mem_append, List.mem_map] at mem
  rcases mem with (((head | ⟨r, there, rfl⟩) | ⟨r, there, rfl⟩) | quality) | extraction
  · rcases List.mem_cons.1 head with rfl | head
    · exact project
    rcases List.mem_cons.1 head with rfl | head
    · exact member
    · rw [List.mem_singleton.1 head]
      exact config
  · exact criteria r there
  · exact phases r there
  · cases planned : plan.quality with
    | none =>
      rw [planned] at quality
      cases quality
    | some q =>
      rw [planned] at quality
      simp only [qualityRows, List.cons_append, List.mem_cons, List.mem_append, List.mem_map]
        at quality
      rcases quality with rfl | ⟨r, there, rfl⟩ | ⟨r, there, rfl⟩
      · exact template q planned
      · exact questions q planned r there
      · exact options q planned r there
  · cases planned : plan.form with
    | none =>
      rw [planned] at extraction
      cases extraction
    | some f =>
      rw [planned] at extraction
      simp only [formRows, List.mem_cons, List.mem_map] at extraction
      rcases extraction with rfl | ⟨r, there, rfl⟩
      · exact form f planned
      · exact fields f planned r there

/-- Every row of a plan is admitted when its bounds are. -/
theorem admits_rows (bounds : plan.config.WithinBounds) : ∀ w ∈ plan.rows, w.1.Admits w.2 :=
  forall_rows plan.project.admits_toRow plan.member.admits_toRow
    (ProjectConfig.admits_toRow bounds)
    (fun r _ => r.admits_toRow) (fun r _ => r.admits_toRow) (fun q _ => q.template.admits_toRow)
    (fun _ _ r _ => r.admits_toRow) (fun _ _ r _ => r.admits_toRow) (fun f _ => f.admits_toRow)
    (fun _ _ r _ => r.admits_toRow)

/-- Every row of a plan has an id. -/
theorem named_rows : ∀ w ∈ plan.rows, ∃ s, w.1.cellAt "id" w.2 = .text s :=
  forall_rows ⟨_, rfl⟩ ⟨_, rfl⟩ ⟨_, rfl⟩ (fun _ _ => ⟨_, rfl⟩) (fun _ _ => ⟨_, rfl⟩)
    (fun _ _ => ⟨_, rfl⟩) (fun _ _ _ _ => ⟨_, rfl⟩) (fun _ _ _ _ => ⟨_, rfl⟩)
    (fun _ _ => ⟨_, rfl⟩) (fun _ _ _ _ => ⟨_, rfl⟩)

/-! ## §5. References. -/

/-- The rows of a quality assessment refer to the project and to each other. -/
theorem grounded_qualityRows {projectId : String} {q : QualityPlan}
    (template : q.template.projectId = projectId)
    (questions : ∀ r ∈ q.questions, r.templateId = q.template.id)
    (options : ∀ r ∈ q.options, ∃ owner ∈ q.questions, r.questionId = owner.id) :
    Grounded [(.project, .text projectId)] (qualityRows (some q)) := by
  refine ⟨fun ref mem => ?_, Grounded.append (Grounded.of_known ?_) (Grounded.of_known ?_)⟩
  · rw [QaTemplate.references_toRow, template] at mem
    exact .inr mem
  · intro w mem ref refers
    obtain ⟨r, there, rfl⟩ := List.mem_map.1 mem
    rw [QaQuestion.references_toRow, questions r there, List.mem_singleton] at refers
    rw [refers]
    exact List.mem_cons_self
  · intro w mem ref refers
    obtain ⟨r, there, rfl⟩ := List.mem_map.1 mem
    obtain ⟨owner, among, same⟩ := options r there
    rw [QaOption.references_toRow, same, List.mem_singleton] at refers
    rw [refers]
    refine List.mem_append_left _ (List.mem_map.2 ⟨(.qaQuestion, owner.toRow), ?_, rfl⟩)
    exact List.mem_map_of_mem among

/-- The rows of a form refer to the project, to the form, and to fields in front
of them. -/
theorem grounded_formRows {projectId : String} {f : ExtractionForm}
    {fields : List ExtractionField} (form : f.projectId = projectId)
    (owned : ∀ r ∈ fields, r.formId = f.id)
    (parents : ∀ (i : Nat) (r : ExtractionField), fields[i]? = some r →
      ∀ parent, r.parentId = some parent →
        ∃ j < i, ∃ above : ExtractionField, fields[j]? = some above ∧ above.id = parent) :
    Grounded [(.project, .text projectId)] (formRows (some f) fields) := by
  refine ⟨fun ref mem => ?_, Grounded.of_earlier fun i w place ref refers => ?_⟩
  · rw [ExtractionForm.references_toRow, form] at mem
    exact .inr mem
  · rw [List.getElem?_map] at place
    obtain ⟨r, there, rfl⟩ := Option.map_eq_some_iff.1 place
    rw [ExtractionField.references_toRow, owned r (List.mem_of_getElem? there)] at refers
    rcases List.mem_pair.1 refers with rfl | rfl
    · exact .inr (.inl List.mem_cons_self)
    · cases below : r.parentId with
      | none => exact .inl rfl
      | some parent =>
        obtain ⟨j, before, above, found, rfl⟩ := parents i r there parent below
        refine .inr (.inr ⟨j, before, ?_⟩)
        rw [List.getElem?_map, found]
        rfl

/-- The rows of a coherent plan refer to rows in front of them. -/
theorem grounded_rows (coherent : plan.IsCoherent) : Grounded [] plan.rows := by
  -- the project is the first row, so that all the others may refer to it
  have behind : ∀ {front back : List (EntityType × Row)},
      (.project, plan.project.toRow) ∈ front → Grounded [] front →
        Grounded [(.project, .text plan.project.id)] back → Grounded [] (front ++ back) := by
    intro front back first left right
    refine left.append (right.mono fun ref mem => ?_)
    rw [List.mem_singleton.1 mem]
    exact List.mem_append_left _ (List.mem_map.2 ⟨_, first, rfl⟩)
  have head : Grounded [] [(.project, plan.project.toRow), (.projectMember, plan.member.toRow),
      (.projectConfig, plan.config.toRow)] := by
    refine ⟨nofun, fun ref mem => ?_, fun ref mem => ?_, trivial⟩
    · rw [ProjectMember.references_toRow, coherent.member] at mem
      exact .inr mem
    · rw [ProjectConfig.references_toRow, coherent.config] at mem
      exact .inr (List.mem_cons_of_mem _ mem)
  have criteria : Grounded [(.project, .text plan.project.id)]
      (plan.criteria.map fun r => (.exclusionCriterion, r.toRow)) := by
    refine .of_known fun w mem ref refers => ?_
    obtain ⟨r, there, rfl⟩ := List.mem_map.1 mem
    rwa [ExclusionCriterion.references_toRow, coherent.criteria r there] at refers
  have phases : Grounded [(.project, .text plan.project.id)]
      (plan.phases.map fun r => (.screeningPhase, r.toRow)) := by
    refine .of_known fun w mem ref refers => ?_
    obtain ⟨r, there, rfl⟩ := List.mem_map.1 mem
    rwa [ScreeningPhase.references_toRow, coherent.phases r there] at refers
  have quality : Grounded [(.project, .text plan.project.id)] (qualityRows plan.quality) := by
    cases planned : plan.quality with
    | none => trivial
    | some q =>
      exact grounded_qualityRows (coherent.template q planned) (coherent.questions q planned)
        (coherent.options q planned)
  have form : Grounded [(.project, .text plan.project.id)] (formRows plan.form plan.fields) := by
    cases planned : plan.form with
    | none => trivial
    | some f =>
      exact grounded_formRows (coherent.form f planned) (coherent.fields f planned)
        coherent.parents
  have first := behind (by simp) head criteria
  exact behind (by simp) (behind (by simp) (behind (by simp) first phases) quality) form

/-! ## §6. Keys. -/

/-- Two rows to be written have no key in common, unless they are of one kind and
have one id. -/
def Separate (a b : EntityType × Row) : Prop :=
  a.1 = b.1 → identify a ≠ identify b →
    ¬b.1.Clash (b.2.map Cell.settled) (a.2.map Cell.settled)

/-- Rows of a kind that is numbered under its owner. -/
theorem separate_of_numbered {entity : EntityType} {owner i j s t : String} {m n : UInt32}
    {a b : Row} (keys : entity.layout.keys = [[owner, "position"], ["id"]])
    (id : entity.cellAt "id" a = .text i) (otherId : entity.cellAt "id" b = .text j)
    (own : entity.cellAt owner a = .text s) (otherOwn : entity.cellAt owner b = .text t)
    (place : entity.cellAt "position" a = .ofU32 m)
    (otherPlace : entity.cellAt "position" b = .ofU32 n) (h : s = t → m < n) :
    Separate (entity, a) (entity, b) := by
  intro _ distinct ⟨key, known, same⟩
  have inKey : ∀ column ∈ key, (entity.cellAt column b).settled.agrees
      (entity.cellAt column a).settled = true := by
    intro column mem
    rw [← cellAt_map_settled, ← cellAt_map_settled]
    exact agrees_of_sameKey same mem
  rw [keys] at known
  rcases List.mem_pair.1 known with rfl | rfl
  · have owners := inKey owner List.mem_cons_self
    have positions := inKey "position" (List.mem_cons_of_mem _ List.mem_cons_self)
    rw [own, otherOwn, Cell.settled_text, Cell.settled_text, Cell.agrees_text_iff] at owners
    rw [place, otherPlace, Cell.ofU32, Cell.ofU32, Cell.settled_int, Cell.settled_int,
      Cell.agrees_int_iff] at positions
    have before := UInt32.lt_iff_toNat_lt.1 (h (Cell.text.inj owners).symm)
    omega
  · have ids := inKey "id" List.mem_cons_self
    rw [id, otherId, Cell.settled_text, Cell.settled_text, Cell.agrees_text_iff] at ids
    exact distinct (by rw [identify, identify, id, otherId, ids])

/-- Separate rows, all of some kinds. -/
structure SeparateAmong (kinds : List EntityType) (writes : List (EntityType × Row)) : Prop where
  among : ∀ w ∈ writes, w.1 ∈ kinds
  separate : writes.Pairwise Separate

/-- Rows of some kinds are separate from rows of other kinds. -/
theorem SeparateAmong.append {kinds others : List EntityType} {front back : List (EntityType × Row)}
    (left : SeparateAmong kinds front) (right : SeparateAmong others back)
    (disjoint : ∀ kind ∈ kinds, kind ∉ others) :
    SeparateAmong (kinds ++ others) (front ++ back) := by
  constructor
  · intro w mem
    rcases List.mem_append.1 mem with first | second
    · exact List.mem_append_left _ (left.among w first)
    · exact List.mem_append_right _ (right.among w second)
  · refine List.pairwise_append.2 ⟨left.separate, right.separate, fun a first b second same => ?_⟩
    exact absurd (same ▸ right.among b second) (disjoint _ (left.among a first))

/-- A single row. -/
theorem separateAmong_singleton (kind : EntityType) (row : Row) :
    SeparateAmong [kind] [(kind, row)] :=
  ⟨by simp, List.pairwise_singleton _ _⟩

/-- Rows of one kind that are separate. -/
theorem separateAmong_map {α : Type} {kind : EntityType} {row : α → Row} {values : List α}
    (h : values.Pairwise fun a b => Separate (kind, row a) (kind, row b)) :
    SeparateAmong [kind] (values.map fun r => (kind, row r)) :=
  ⟨by simp, List.pairwise_map.2 h⟩

theorem separateAmong_qualityRows {quality : Option QualityPlan}
    (questions : ∀ q, quality = some q → q.questions.Pairwise fun a b => a.position < b.position)
    (options : ∀ q, quality = some q →
      q.options.Pairwise fun a b => a.questionId = b.questionId → a.position < b.position) :
    SeparateAmong [.qaTemplate, .qaQuestion, .qaOption] (qualityRows quality) := by
  cases quality with
  | none => exact ⟨nofun, .nil⟩
  | some q =>
    have template := separateAmong_singleton .qaTemplate q.template.toRow
    have questions : SeparateAmong [.qaQuestion]
        (q.questions.map fun r => (.qaQuestion, r.toRow)) :=
      separateAmong_map ((questions q rfl).imp fun before =>
        separate_of_numbered rfl rfl rfl rfl rfl rfl rfl fun _ => before)
    have options : SeparateAmong [.qaOption]
        (q.options.map fun r => (.qaOption, r.toRow)) :=
      separateAmong_map ((options q rfl).imp fun before =>
        separate_of_numbered rfl rfl rfl rfl rfl rfl rfl before)
    exact (template.append questions (by decide)).append options (by decide)

theorem separateAmong_formRows {form : Option ExtractionForm} {fields : List ExtractionField}
    (ascending : fields.Pairwise fun a b => a.position < b.position) :
    SeparateAmong [.extractionForm, .extractionField] (formRows form fields) := by
  cases form with
  | none => exact ⟨nofun, .nil⟩
  | some f =>
    have form := separateAmong_singleton .extractionForm f.toRow
    have fields : SeparateAmong [.extractionField]
        (fields.map fun r => (.extractionField, r.toRow)) :=
      separateAmong_map (ascending.imp fun before =>
        separate_of_numbered rfl rfl rfl rfl rfl rfl rfl fun _ => before)
    exact form.append fields (by decide)

/-- No two rows of a numbered plan share a key when they have ids of their own. -/
theorem apart_rows (numbered : plan.IsNumbered (· < ·))
    (distinct : (plan.rows.map identify).Nodup) :
    plan.rows.Pairwise fun a b =>
      a.1 = b.1 → ¬b.1.Clash (b.2.map Cell.settled) (a.2.map Cell.settled) := by
  have head : SeparateAmong [.project, .projectMember, .projectConfig]
      [(.project, plan.project.toRow), (.projectMember, plan.member.toRow),
        (.projectConfig, plan.config.toRow)] := ⟨by simp, by simp [Separate]⟩
  have criteria : SeparateAmong [.exclusionCriterion]
      (plan.criteria.map fun r => (.exclusionCriterion, r.toRow)) :=
    separateAmong_map (numbered.criteria.imp fun before =>
      separate_of_numbered rfl rfl rfl rfl rfl rfl rfl fun _ => before)
  have phases : SeparateAmong [.screeningPhase]
      (plan.phases.map fun r => (.screeningPhase, r.toRow)) :=
    separateAmong_map (numbered.phases.imp fun before =>
      separate_of_numbered rfl rfl rfl rfl rfl rfl rfl fun _ => before)
  have quality := separateAmong_qualityRows numbered.questions numbered.options
  have form : SeparateAmong _ (formRows plan.form plan.fields) :=
    separateAmong_formRows numbered.fields
  -- every segment of the plan has kinds of its own
  have all := (((head.append criteria (by decide)).append phases (by decide)).append quality
    (by decide)).append form (by decide)
  refine (all.separate.and (List.pairwise_map.1 distinct)).imp ?_
  intro a b ⟨apart, ids⟩ same
  exact apart same ids

end InstallPlan

end LiteratureReview
