/-
  LiteratureReview.Proofs.Store.Records
  ─────────────────────────────────────
  Rows of a project are read back from rows of tables.

  Each kind of row gives back what it was made of (`ofRow_toRow`), provided
  its texts come back whole, its times are times of a clock, and what it
  holds as JSON can be read.  Two things are lost: a description that is
  empty is none, and a table keeps no sign of a zero.  `restored` is a row
  without them.  Whatever row is read, the id is the text in its first column
  (`text_of_ofRow`).
-/
import LiteratureReview.Proofs.Extraction.Config
import LiteratureReview.Proofs.Protocol.RoundTrip
import LiteratureReview.Proofs.Store.Columns
import LiteratureReview.Proofs.Store.Constraints

namespace LiteratureReview

open Text Row

@[simp] theorem Cell.settled_ofOption (o : Option String) :
    (Cell.ofOption o).settled = .ofOption o := by
  cases o <;> rfl

@[simp] theorem Cell.settled_ofU32 (n : UInt32) : (Cell.ofU32 n).settled = .ofU32 n := rfl

@[simp] theorem Cell.settled_ofBool (b : Bool) : (Cell.ofBool b).settled = .ofBool b := rfl

@[simp] theorem Cell.settled_ofInstant (t : Time.Instant) :
    (Cell.ofInstant t).settled = .ofInstant t := rfl

/-- What a table keeps of a row has no other texts than the row. -/
theorem Row.HasWholeTexts.settled {row : Row} (whole : row.HasWholeTexts) :
    Row.HasWholeTexts (row.map Cell.settled) := by
  intro s mem
  obtain ⟨c, there, same⟩ := List.mem_map.1 mem
  exact whole s (Cell.settled_eq_text_iff.1 same ▸ there)

/-! ## §1. Projects. -/

namespace Project

theorem settled_toRow (r : Project) : r.toRow.map Cell.settled = r.toRow := by
  simp [toRow]

theorem name_status (r : Project) : Row.name ProjectStatus.table r.toRow 4 = .ok r.status := by
  refine name_of (s := r.status.name) rfl ?_ ?_ <;> cases r.status <;> decide

/-- A project can be read, whatever becomes of its texts. -/
theorem exists_ofRow_toRow (r : Project) (clock : r.createdAt.IsClock) :
    ∃ p, ofRow r.toRow = .ok p := by
  unfold ofRow
  rw [text_of (s := r.id) rfl, text_of (s := r.label) rfl, text_of (s := r.title) rfl,
    option_of (o := r.description) rfl, r.name_status, text_of (s := r.createdBy) rfl,
    instant_of clock rfl]
  exact ⟨_, rfl⟩

/-- A project as it is read: a description that is empty is none. -/
def restored (r : Project) : Project := { r with description := nonempty r.description }

/-- **A project is read back.** -/
theorem ofRow_toRow {r : Project} (whole : r.toRow.HasWholeTexts) (clock : r.createdAt.IsClock) :
    ofRow r.toRow = .ok r.restored := by
  unfold ofRow
  rw [whole.text (s := r.id) rfl, whole.text (s := r.label) rfl, whole.text (s := r.title) rfl,
    whole.option (o := r.description) rfl, r.name_status, whole.text (s := r.createdBy) rfl,
    instant_of clock rfl]
  rfl

end Project

namespace ProjectMember

theorem settled_toRow (r : ProjectMember) : r.toRow.map Cell.settled = r.toRow := by
  simp [toRow]

theorem ofRow_toRow {r : ProjectMember} (whole : r.toRow.HasWholeTexts)
    (clock : r.createdAt.IsClock) : ofRow r.toRow = .ok r := by
  have role : Row.name MemberRole.table r.toRow 3 = .ok r.role := by
    refine name_of (s := r.role.name) rfl ?_ ?_ <;> cases r.role <;> decide
  unfold ofRow
  rw [whole.text (s := r.id) rfl, whole.text (s := r.projectId) rfl,
    whole.text (s := r.userId) rfl, role, instant_of clock rfl]
  rfl

end ProjectMember

namespace ProjectConfig

theorem settled_toRow (r : ProjectConfig) : r.toRow.map Cell.settled = r.toRow := by
  simp [toRow]

/-- **A configuration is read back, the protocol included.** -/
theorem ofRow_toRow {r : ProjectConfig} (whole : r.toRow.HasWholeTexts)
    (clock : r.createdAt.IsClock) (writable : r.protocol.IsWritable Scan.levelLimit) :
    ofRow r.toRow = .ok r := by
  have conflict : Row.name ConflictMode.table r.toRow 5 = .ok r.conflictType := by
    refine name_of (s := r.conflictType.name) rfl ?_ ?_ <;> cases r.conflictType <;> decide
  have resolution : Row.name ResolutionRule.table r.toRow 6 = .ok r.conflictResolution := by
    refine name_of (s := r.conflictResolution.name) rfl ?_ ?_ <;>
      cases r.conflictResolution <;> decide
  have assignment : Row.name AssignmentMode.table r.toRow 10 = .ok r.assignmentMode := by
    refine name_of (s := r.assignmentMode.name) rfl ?_ ?_ <;> cases r.assignmentMode <;> decide
  unfold ofRow
  rw [whole.text (s := r.id) rfl, whole.text (s := r.projectId) rfl,
    flag_of (b := r.screeningEnabled) rfl, flag_of (b := r.qaEnabled) rfl,
    flag_of (b := r.extractionEnabled) rfl, conflict, resolution,
    u32_of (n := r.reviewPerPaper) rfl, u32_of (n := r.validationPercentage) rfl,
    flag_of (b := r.validationEnabled) rfl, assignment, flag_of (b := r.sourcePapersEnabled) rfl,
    flag_of (b := r.searchStrategyEnabled) rfl,
    whole.document (s := r.protocol.toText) rfl (ReviewProtocol.readText_toText writable),
    instant_of clock rfl]
  rfl

end ProjectConfig

/-! ## §2. Screening. -/

namespace ExclusionCriterion

theorem settled_toRow (r : ExclusionCriterion) : r.toRow.map Cell.settled = r.toRow := by
  simp [toRow]

theorem ofRow_toRow {r : ExclusionCriterion} (whole : r.toRow.HasWholeTexts)
    (clock : r.createdAt.IsClock) : ofRow r.toRow = .ok r := by
  unfold ofRow
  rw [whole.text (s := r.id) rfl, whole.text (s := r.projectId) rfl, whole.text (s := r.name) rfl,
    u32_of (n := r.position) rfl, instant_of clock rfl]
  rfl

end ExclusionCriterion

namespace ScreeningPhase

theorem settled_toRow (r : ScreeningPhase) : r.toRow.map Cell.settled = r.toRow := by
  simp [toRow]

/-- A phase as it is read: a description that is empty is none. -/
def restored (r : ScreeningPhase) : ScreeningPhase :=
  { r with description := nonempty r.description }

/-- A printed list of texts is read back. -/
theorem readText_texts (names : List String) :
    readText (.list .string) (Decoder.list Decoder.text) (Json.texts names).print =
      .ok names := by
  have holds : (Shape.list .string).Holds (Json.listOf .text names) :=
    Shape.holds_listOf fun s _ => Shape.holds_string s
  have shallow : (Json.listOf Json.text names).depth ≤ 1 :=
    Json.depth_listOf_le fun s _ => Nat.le_refl 0
  exact readText_print holds (Nat.lt_of_le_of_lt shallow (by decide))
    (Decoder.list_listOf fun s _ => rfl)

/-- What is printed is not empty. -/
theorem nonempty_texts (names : List String) :
    nonempty (some (Json.texts names).print) = some (Json.texts names).print := by
  have written : (Json.texts names).print ≠ "" := by
    have : (Json.texts names).print = "[" ++ Json.printItems (names.map .text) ++ "]" := rfl
    rw [this]
    intro empty
    have := congrArg String.toList empty
    simp at this
  unfold nonempty
  rw [Option.filter_some, if_pos]
  simpa using written

/-- **A phase is read back, its fields included.** -/
theorem ofRow_toRow {r : ScreeningPhase} (whole : r.toRow.HasWholeTexts)
    (clock : r.createdAt.IsClock) : ofRow r.toRow = .ok r.restored := by
  have fields : readFields (nonempty (r.fields.map fun names => (Json.texts names).print)) =
      .ok r.fields := by
    cases r.fields with
    | none => rfl
    | some names =>
      rw [Option.map_some, nonempty_texts]
      simp only [readFields, DatabaseError.parseDocument, readText_texts, Except.mapError,
        Except.map]
  unfold ofRow
  rw [whole.text (s := r.id) rfl, whole.text (s := r.projectId) rfl, whole.text (s := r.title) rfl,
    whole.option (o := r.description) rfl,
    whole.option (o := r.fields.map fun names => (Json.texts names).print) rfl,
    u32_of (n := r.position) rfl, instant_of clock rfl]
  simp only [bind, Except.bind, fields]
  rfl

end ScreeningPhase

/-! ## §3. Quality assessment. -/

namespace QaTemplate

/-- A template as a table keeps it: a zero has no sign. -/
def restored (r : QaTemplate) : QaTemplate := { r with minScore := r.minScore.unsignedZero }

theorem settled_toRow (r : QaTemplate) : r.toRow.map Cell.settled = r.restored.toRow := rfl

theorem ofRow_toRow {r : QaTemplate} (whole : r.toRow.HasWholeTexts)
    (clock : r.createdAt.IsClock) : ofRow r.toRow = .ok r := by
  unfold ofRow
  rw [whole.text (s := r.id) rfl, whole.text (s := r.projectId) rfl,
    real_of (x := r.minScore) rfl, instant_of clock rfl]
  rfl

end QaTemplate

namespace QaQuestion

theorem settled_toRow (r : QaQuestion) : r.toRow.map Cell.settled = r.toRow := by
  simp [toRow]

theorem ofRow_toRow {r : QaQuestion} (whole : r.toRow.HasWholeTexts) : ofRow r.toRow = .ok r := by
  unfold ofRow
  rw [whole.text (s := r.id) rfl, whole.text (s := r.templateId) rfl,
    whole.text (s := r.text) rfl, u32_of (n := r.position) rfl]
  rfl

end QaQuestion

namespace QaOption

/-- An option as a table keeps it: a zero has no sign. -/
def restored (r : QaOption) : QaOption := { r with score := r.score.unsignedZero }

theorem settled_toRow (r : QaOption) : r.toRow.map Cell.settled = r.restored.toRow := rfl

theorem ofRow_toRow {r : QaOption} (whole : r.toRow.HasWholeTexts) : ofRow r.toRow = .ok r := by
  unfold ofRow
  rw [whole.text (s := r.id) rfl, whole.text (s := r.questionId) rfl,
    whole.text (s := r.title) rfl, real_of (x := r.score) rfl, flag_of (b := r.isPositive) rfl,
    u32_of (n := r.position) rfl]
  rfl

end QaOption

/-! ## §4. Extraction. -/

namespace ExtractionForm

theorem settled_toRow (r : ExtractionForm) : r.toRow.map Cell.settled = r.toRow := by
  simp [toRow]

/-- A time of a clock is not written as the empty text. -/
theorem stored_ne_empty {t : Time.Instant} (clock : t.IsClock) : t.stored ≠ "" := by
  intro empty
  have read := Time.Instant.parseStored_stored clock
  rw [empty] at read
  cases read

theorem ofRow_toRow {r : ExtractionForm} (whole : r.toRow.HasWholeTexts)
    (published : ∀ t, r.publishedAt = some t → t.IsClock) (clock : r.createdAt.IsClock) :
    ofRow r.toRow = .ok r := by
  have time :
      DatabaseError.parseOptionalInstant (nonempty (r.publishedAt.map Time.Instant.stored)) =
      .ok r.publishedAt := by
    cases given : r.publishedAt with
    | none => rfl
    | some t =>
      have written := stored_ne_empty (published t given)
      have filled : t.stored.isEmpty = false := by simpa using written
      simp only [Option.map_some, nonempty, Option.filter_some, filled, Bool.not_false, if_true,
        DatabaseError.parseOptionalInstant, DatabaseError.parseInstant,
        Time.Instant.parseStored_stored (published t given), Except.mapError, Except.map]
      rfl
  unfold ofRow
  rw [whole.text (s := r.id) rfl, whole.text (s := r.projectId) rfl,
    flag_of (b := r.published) rfl,
    whole.option (o := r.publishedAt.map Time.Instant.stored) rfl, instant_of clock rfl]
  simp only [bind, Except.bind, time]
  rfl

end ExtractionForm

namespace ExtractionField

theorem settled_toRow (r : ExtractionField) : r.toRow.map Cell.settled = r.toRow := by
  simp [toRow]

/-- **A field is read back, its settings included.** -/
theorem ofRow_toRow {r : ExtractionField} (whole : r.toRow.HasWholeTexts)
    (writable : r.config.IsWritable (Scan.levelLimit - 1)) (below : r.parentId ≠ some "") :
    ofRow r.toRow = .ok r := by
  have kind : Row.name FieldKind.table r.toRow 4 = .ok r.kind := by
    refine name_of (s := r.kind.name) rfl ?_ ?_ <;> cases r.kind <;> decide
  have parent : nonempty r.parentId = r.parentId := by
    cases given : r.parentId with
    | none => rfl
    | some s =>
      have filled : s ≠ "" := fun empty => below (by rw [given, empty])
      unfold nonempty
      rw [Option.filter_some, if_pos]
      simpa using filled
  unfold ofRow
  rw [whole.text (s := r.id) rfl, whole.text (s := r.formId) rfl, whole.text (s := r.name) rfl,
    whole.text (s := r.label) rfl, kind, flag_of (b := r.isRequired) rfl,
    u32_of (n := r.position) rfl,
    whole.document (s := r.config.encode.print) rfl (FieldConfig.readText_print writable),
    whole.option (o := r.parentId) rfl, parent]
  rfl

end ExtractionField

/-! ## §5. Ids. -/

section Ids

variable {row : Row}

theorem Project.text_of_ofRow {p : Project} (h : ofRow row = .ok p) : row.text 0 = .ok p.id := by
  obtain ⟨id, read, h⟩ := exists_of_bind_eq_ok h
  obtain ⟨label, -, h⟩ := exists_of_bind_eq_ok h
  obtain ⟨title, -, h⟩ := exists_of_bind_eq_ok h
  obtain ⟨description, -, h⟩ := exists_of_bind_eq_ok h
  obtain ⟨status, -, h⟩ := exists_of_bind_eq_ok h
  obtain ⟨createdBy, -, h⟩ := exists_of_bind_eq_ok h
  obtain ⟨createdAt, -, h⟩ := exists_of_bind_eq_ok h
  cases h
  exact read

theorem QaTemplate.text_of_ofRow {t : QaTemplate} (h : ofRow row = .ok t) :
    row.text 0 = .ok t.id := by
  obtain ⟨id, read, h⟩ := exists_of_bind_eq_ok h
  obtain ⟨projectId, -, h⟩ := exists_of_bind_eq_ok h
  obtain ⟨minScore, -, h⟩ := exists_of_bind_eq_ok h
  obtain ⟨createdAt, -, h⟩ := exists_of_bind_eq_ok h
  cases h
  exact read

theorem QaQuestion.text_of_ofRow {q : QaQuestion} (h : ofRow row = .ok q) :
    row.text 0 = .ok q.id := by
  obtain ⟨id, read, h⟩ := exists_of_bind_eq_ok h
  obtain ⟨templateId, -, h⟩ := exists_of_bind_eq_ok h
  obtain ⟨text, -, h⟩ := exists_of_bind_eq_ok h
  obtain ⟨position, -, h⟩ := exists_of_bind_eq_ok h
  cases h
  exact read

theorem ExtractionForm.text_of_ofRow {f : ExtractionForm} (h : ofRow row = .ok f) :
    row.text 0 = .ok f.id := by
  obtain ⟨id, read, h⟩ := exists_of_bind_eq_ok h
  obtain ⟨projectId, -, h⟩ := exists_of_bind_eq_ok h
  obtain ⟨published, -, h⟩ := exists_of_bind_eq_ok h
  obtain ⟨text, -, h⟩ := exists_of_bind_eq_ok h
  obtain ⟨publishedAt, -, h⟩ := exists_of_bind_eq_ok h
  obtain ⟨createdAt, -, h⟩ := exists_of_bind_eq_ok h
  cases h
  exact read

end Ids

end LiteratureReview
