/-
  LiteratureReview.Store.Records
  ──────────────────────────────
  The rows of a project as rows of tables, and back.

  Columns are read from left to right; the first that cannot be read is the
  one complained about.
-/
import LiteratureReview.Project.Rows
import LiteratureReview.Store.Column

namespace LiteratureReview

/-! ## §1. Projects. -/

/-- A project as it is stored. -/
def Project.toRow (r : Project) : Row :=
  [.text r.id, .text r.label, .text r.title, .ofOption r.description, .text r.status.name,
   .text r.createdBy, .ofInstant r.createdAt]

/-- Read a stored project. -/
def Project.ofRow (row : Row) : Except DatabaseError Project := do
  return {
    id := ← row.text 0
    label := ← row.text 1
    title := ← row.text 2
    description := ← row.option 3
    status := ← Row.name ProjectStatus.table row 4
    createdBy := ← row.text 5
    createdAt := ← row.instant 6 }

/-- A member as it is stored. -/
def ProjectMember.toRow (r : ProjectMember) : Row :=
  [.text r.id, .text r.projectId, .text r.userId, .text r.role.name, .ofInstant r.createdAt]

/-- Read a stored member. -/
def ProjectMember.ofRow (row : Row) : Except DatabaseError ProjectMember := do
  return {
    id := ← row.text 0
    projectId := ← row.text 1
    userId := ← row.text 2
    role := ← Row.name MemberRole.table row 3
    createdAt := ← row.instant 4 }

/-- A configuration as it is stored, the protocol as text. -/
def ProjectConfig.toRow (r : ProjectConfig) : Row :=
  [.text r.id, .text r.projectId, .ofBool r.screeningEnabled, .ofBool r.qaEnabled,
   .ofBool r.extractionEnabled, .text r.conflictType.name, .text r.conflictResolution.name,
   .ofU32 r.reviewPerPaper, .ofU32 r.validationPercentage, .ofBool r.validationEnabled,
   .text r.assignmentMode.name, .ofBool r.sourcePapersEnabled, .ofBool r.searchStrategyEnabled,
   .text r.protocol.toText, .ofInstant r.createdAt]

/-- Read a stored configuration. -/
def ProjectConfig.ofRow (row : Row) : Except DatabaseError ProjectConfig := do
  return {
    id := ← row.text 0
    projectId := ← row.text 1
    screeningEnabled := ← row.flag 2
    qaEnabled := ← row.flag 3
    extractionEnabled := ← row.flag 4
    conflictType := ← Row.name ConflictMode.table row 5
    conflictResolution := ← Row.name ResolutionRule.table row 6
    reviewPerPaper := ← row.u32 7
    validationPercentage := ← row.u32 8
    validationEnabled := ← row.flag 9
    assignmentMode := ← Row.name AssignmentMode.table row 10
    sourcePapersEnabled := ← row.flag 11
    searchStrategyEnabled := ← row.flag 12
    protocol := ← Row.document ReviewProtocol.shape ReviewProtocol.decode row 13
    createdAt := ← row.instant 14 }

/-! ## §2. Screening. -/

/-- A criterion as it is stored. -/
def ExclusionCriterion.toRow (r : ExclusionCriterion) : Row :=
  [.text r.id, .text r.projectId, .text r.name, .ofU32 r.position, .ofInstant r.createdAt]

/-- Read a stored criterion. -/
def ExclusionCriterion.ofRow (row : Row) : Except DatabaseError ExclusionCriterion := do
  return {
    id := ← row.text 0
    projectId := ← row.text 1
    name := ← row.text 2
    position := ← row.u32 3
    createdAt := ← row.instant 4 }

/-- A phase as it is stored, its fields as a JSON list. -/
def ScreeningPhase.toRow (r : ScreeningPhase) : Row :=
  [.text r.id, .text r.projectId, .text r.title, .ofOption r.description,
   .ofOption (r.fields.map fun names => (Json.texts names).print), .ofU32 r.position,
   .ofInstant r.createdAt]

/-- Read the fields of a stored phase. -/
def ScreeningPhase.readFields : Option String → Except DatabaseError (Option (List String))
  | some s =>
    (DatabaseError.parseDocument (.list .string) (Decoder.list Decoder.text) s).map some
  | none => .ok none

/-- Read a stored phase. -/
def ScreeningPhase.ofRow (row : Row) : Except DatabaseError ScreeningPhase := do
  return {
    id := ← row.text 0
    projectId := ← row.text 1
    title := ← row.text 2
    description := ← row.option 3
    fields := ← ScreeningPhase.readFields (← row.option 4)
    position := ← row.u32 5
    createdAt := ← row.instant 6 }

/-! ## §3. Quality assessment. -/

/-- A template as it is stored. -/
def QaTemplate.toRow (r : QaTemplate) : Row :=
  [.text r.id, .text r.projectId, .real r.minScore, .ofInstant r.createdAt]

/-- Read a stored template. -/
def QaTemplate.ofRow (row : Row) : Except DatabaseError QaTemplate := do
  return {
    id := ← row.text 0
    projectId := ← row.text 1
    minScore := ← row.real 2
    createdAt := ← row.instant 3 }

/-- A question as it is stored. -/
def QaQuestion.toRow (r : QaQuestion) : Row :=
  [.text r.id, .text r.templateId, .text r.text, .ofU32 r.position]

/-- Read a stored question. -/
def QaQuestion.ofRow (row : Row) : Except DatabaseError QaQuestion := do
  return {
    id := ← row.text 0
    templateId := ← row.text 1
    text := ← row.text 2
    position := ← row.u32 3 }

/-- An option as it is stored. -/
def QaOption.toRow (r : QaOption) : Row :=
  [.text r.id, .text r.questionId, .text r.title, .real r.score, .ofBool r.isPositive,
   .ofU32 r.position]

/-- Read a stored option. -/
def QaOption.ofRow (row : Row) : Except DatabaseError QaOption := do
  return {
    id := ← row.text 0
    questionId := ← row.text 1
    title := ← row.text 2
    score := ← row.real 3
    isPositive := ← row.flag 4
    position := ← row.u32 5 }

/-! ## §4. Extraction. -/

/-- A form as it is stored. -/
def ExtractionForm.toRow (r : ExtractionForm) : Row :=
  [.text r.id, .text r.projectId, .ofBool r.published,
   .ofOption (r.publishedAt.map Time.Instant.stored), .ofInstant r.createdAt]

/-- Read a stored form. -/
def ExtractionForm.ofRow (row : Row) : Except DatabaseError ExtractionForm := do
  return {
    id := ← row.text 0
    projectId := ← row.text 1
    published := ← row.flag 2
    publishedAt := ← DatabaseError.parseOptionalInstant (← row.option 3)
    createdAt := ← row.instant 4 }

/-- A field as it is stored, its settings as a JSON object. -/
def ExtractionField.toRow (r : ExtractionField) : Row :=
  [.text r.id, .text r.formId, .text r.name, .text r.label, .text r.kind.name,
   .ofBool r.isRequired, .ofU32 r.position, .text r.config.encode.print, .ofOption r.parentId]

/-- Read a stored field. -/
def ExtractionField.ofRow (row : Row) : Except DatabaseError ExtractionField := do
  return {
    id := ← row.text 0
    formId := ← row.text 1
    name := ← row.text 2
    label := ← row.text 3
    kind := ← Row.name FieldKind.table row 4
    isRequired := ← row.flag 5
    position := ← row.u32 6
    config := ← Row.document FieldConfig.shape FieldConfig.decode row 7
    parentId := ← row.option 8 }

end LiteratureReview
