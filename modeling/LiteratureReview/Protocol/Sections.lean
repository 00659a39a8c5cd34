/-
  LiteratureReview.Protocol.Sections
  ──────────────────────────────────
  The flat sections of a protocol: the project, screening, quality
  assessment, and reports.

  Each type comes with its JSON form: how it is read from a value
  (`decode`), what a text of it looks like (`shape`), and how it is written
  (`encode`).
-/
import LiteratureReview.Protocol.Scalar

namespace LiteratureReview

open Json

/-! ## §1. Plain enumerations. -/

/-- What reviewers disagree on when a conflict is raised. -/
inductive ConflictType where
  | decision
  | criteria
  deriving DecidableEq, Repr

/-- The spellings of conflict types. -/
def ConflictType.table : List (String × ConflictType) :=
  [("Decision", .decision), ("Criteria", .criteria)]

/-- The spelling of a conflict type. -/
def ConflictType.name : ConflictType → String
  | .decision => "Decision"
  | .criteria => "Criteria"

/-- How a conflict is resolved. -/
inductive ConflictResolution where
  | majority
  | unanimity
  deriving DecidableEq, Repr

/-- The spellings of resolutions. -/
def ConflictResolution.table : List (String × ConflictResolution) :=
  [("Majority", .majority), ("Unanimity", .unanimity)]

/-- The spelling of a resolution. -/
def ConflictResolution.name : ConflictResolution → String
  | .majority => "Majority"
  | .unanimity => "Unanimity"

/-- How papers are assigned for validation. -/
inductive AssignmentMode where
  | normal
  | veto
  | info
  deriving DecidableEq, Repr

/-- The spellings of assignment modes. -/
def AssignmentMode.table : List (String × AssignmentMode) :=
  [("Normal", .normal), ("Veto", .veto), ("Info", .info)]

/-- The spelling of an assignment mode. -/
def AssignmentMode.name : AssignmentMode → String
  | .normal => "Normal"
  | .veto => "Veto"
  | .info => "Info"

/-- The charts a report can be drawn as. -/
inductive Chart where
  | bar
  | pie
  | line
  deriving DecidableEq, Repr

/-- The spellings of charts. -/
def Chart.table : List (String × Chart) :=
  [("bar", .bar), ("pie", .pie), ("line", .line)]

/-- The spelling of a chart. -/
def Chart.name : Chart → String
  | .bar => "bar"
  | .pie => "pie"
  | .line => "line"

/-- A plain enumeration inside a text. -/
def Shape.choiceOf {α : Type} (table : List (String × α)) : Shape :=
  .choice (table.map (·.1))

/-! ## §2. The project. -/

/-- What a protocol says about its project. -/
structure ProjectSection where
  shortName : Identifier
  name : NonEmptyText
  description : Option String
  deriving DecidableEq, Repr

namespace ProjectSection

def type : RecordType := ⟨"ProjectDef", ["short_name", "name", "description"]⟩

def shape : Shape := .record type
  [Shape.required "short_name" Identifier.shape, Shape.required "name" NonEmptyText.shape,
   Shape.optional "description" .string]

def decode : Decoder ProjectSection := type.decode fun f =>
  ProjectSection.mk <$> f.required "short_name" Identifier.decode
    <*> f.required "name" NonEmptyText.decode
    <*> f.optional "description" Decoder.text

def encode (p : ProjectSection) : Json :=
  .object (member "short_name" p.shortName.encode ++ member "name" p.name.encode
    ++ memberIf "description" .text p.description)

end ProjectSection

/-! ## §3. Screening. -/

/-- An entry that is nothing but a name. -/
structure NamedEntry where
  name : NonEmptyText
  deriving DecidableEq, Repr

namespace NamedEntry

def type : RecordType := ⟨"NamedEntry", ["name"]⟩

def shape : Shape := .record type [Shape.required "name" NonEmptyText.shape]

def decode : Decoder NamedEntry := type.decode fun f =>
  NamedEntry.mk <$> f.required "name" NonEmptyText.decode

def encode (e : NamedEntry) : Json :=
  .object (member "name" e.name.encode)

end NamedEntry

/-- A stage of screening. -/
structure PhaseSection where
  title : NonEmptyText
  description : Option String
  /-- The extraction fields that are shown during the phase. -/
  fields : Option (List Identifier)
  deriving DecidableEq, Repr

namespace PhaseSection

def type : RecordType := ⟨"PhaseDef", ["title", "description", "fields"]⟩

def shape : Shape := .record type
  [Shape.required "title" NonEmptyText.shape, Shape.optional "description" .string,
   Shape.optional "fields" (.list Identifier.shape)]

def decode : Decoder PhaseSection := type.decode fun f =>
  PhaseSection.mk <$> f.required "title" NonEmptyText.decode
    <*> f.optional "description" Decoder.text
    <*> f.optional "fields" (Decoder.list Identifier.decode)

def encode (p : PhaseSection) : Json :=
  .object (member "title" p.title.encode ++ memberIf "description" .text p.description
    ++ memberIf "fields" (listOf Identifier.encode) p.fields)

end PhaseSection

/-- How papers are screened. -/
structure ScreeningSection where
  reviewPerPaper : UInt32
  conflictType : ConflictType
  conflictResolution : ConflictResolution
  exclusionCriteria : List NamedEntry
  sourcePapers : Option (List NamedEntry)
  searchStrategy : Option (List NamedEntry)
  validationPercentage : Option UInt32
  assignmentMode : Option AssignmentMode
  phases : Option (List PhaseSection)
  deriving DecidableEq, Repr

namespace ScreeningSection

def type : RecordType := ⟨"ScreeningConfig",
  ["review_per_paper", "conflict_type", "conflict_resolution", "exclusion_criteria",
   "source_papers", "search_strategy", "validation_percentage", "validation_assignment_mode",
   "phases"]⟩

def shape : Shape := .record type
  [Shape.required "review_per_paper" .u32,
   Shape.required "conflict_type" (.choiceOf ConflictType.table),
   Shape.required "conflict_resolution" (.choiceOf ConflictResolution.table),
   Shape.required "exclusion_criteria" (.list NamedEntry.shape),
   Shape.optional "source_papers" (.list NamedEntry.shape),
   Shape.optional "search_strategy" (.list NamedEntry.shape),
   Shape.optional "validation_percentage" .u32,
   Shape.optional "validation_assignment_mode" (.choiceOf AssignmentMode.table),
   Shape.optional "phases" (.list PhaseSection.shape)]

def decode : Decoder ScreeningSection := type.decode fun f =>
  ScreeningSection.mk <$> f.required "review_per_paper" Decoder.u32
    <*> f.required "conflict_type" (Decoder.choice ConflictType.table)
    <*> f.required "conflict_resolution" (Decoder.choice ConflictResolution.table)
    <*> f.required "exclusion_criteria" (Decoder.list NamedEntry.decode)
    <*> f.optional "source_papers" (Decoder.list NamedEntry.decode)
    <*> f.optional "search_strategy" (Decoder.list NamedEntry.decode)
    <*> f.optional "validation_percentage" Decoder.u32
    <*> f.optional "validation_assignment_mode" (Decoder.choice AssignmentMode.table)
    <*> f.optional "phases" (Decoder.list PhaseSection.decode)

def encode (s : ScreeningSection) : Json :=
  .object (member "review_per_paper" (u32 s.reviewPerPaper)
    ++ member "conflict_type" (.text s.conflictType.name)
    ++ member "conflict_resolution" (.text s.conflictResolution.name)
    ++ member "exclusion_criteria" (listOf NamedEntry.encode s.exclusionCriteria)
    ++ memberIf "source_papers" (listOf NamedEntry.encode) s.sourcePapers
    ++ memberIf "search_strategy" (listOf NamedEntry.encode) s.searchStrategy
    ++ memberIf "validation_percentage" u32 s.validationPercentage
    ++ memberIf "validation_assignment_mode" (fun m => .text m.name) s.assignmentMode
    ++ memberIf "phases" (listOf PhaseSection.encode) s.phases)

/-- The phases that are declared, none when the list is left out. -/
def declaredPhases (s : ScreeningSection) : List PhaseSection :=
  s.phases.getD []

/-- Source papers are listed. -/
def hasSourcePapers (s : ScreeningSection) : Bool :=
  !(s.sourcePapers.getD []).isEmpty

/-- A search strategy is listed. -/
def hasSearchStrategy (s : ScreeningSection) : Bool :=
  !(s.searchStrategy.getD []).isEmpty

end ScreeningSection

/-! ## §4. Quality assessment. -/

/-- An answer shared by all questions, with its score. -/
structure ResponseSection where
  title : NonEmptyText
  score : Decimal.Double
  deriving DecidableEq, Repr

namespace ResponseSection

def type : RecordType := ⟨"QaResponse", ["title", "score"]⟩

def shape : Shape := .record type
  [Shape.required "title" NonEmptyText.shape, Shape.required "score" .double]

def decode : Decoder ResponseSection := type.decode fun f =>
  ResponseSection.mk <$> f.required "title" NonEmptyText.decode
    <*> f.required "score" Decoder.double

def encode (r : ResponseSection) : Json :=
  .object (member "title" r.title.encode ++ member "score" (double r.score))

/-- A score strictly above zero. -/
def isPositive (r : ResponseSection) : Bool :=
  r.score.isPositive

end ResponseSection

/-- How the quality of papers is assessed. -/
structure QualitySection where
  questions : List NonEmptyText
  responses : List ResponseSection
  minScore : Decimal.Double
  deriving DecidableEq, Repr

namespace QualitySection

def type : RecordType := ⟨"QaConfig", ["question", "response", "min_score"]⟩

def shape : Shape := .record type
  [Shape.required "question" (.list NonEmptyText.shape),
   Shape.required "response" (.list ResponseSection.shape), Shape.required "min_score" .double]

def decode : Decoder QualitySection := type.decode fun f =>
  QualitySection.mk <$> f.required "question" (Decoder.list NonEmptyText.decode)
    <*> f.required "response" (Decoder.list ResponseSection.decode)
    <*> f.required "min_score" Decoder.double

def encode (q : QualitySection) : Json :=
  .object (member "question" (listOf NonEmptyText.encode q.questions)
    ++ member "response" (listOf ResponseSection.encode q.responses)
    ++ member "min_score" (double q.minScore))

end QualitySection

/-! ## §5. Reports. -/

/-- A report on one category, or on one category against another. -/
structure Report where
  name : String
  title : Option String
  value : Identifier
  /-- The category the value is compared against. -/
  reference : Option Identifier
  charts : List Chart
  deriving DecidableEq, Repr

namespace Report

def union : UnionType := ⟨"Report", "report_type", ["Simple", "Compared"]⟩

def simpleType : RecordType := ⟨"SimpleReport", ["name", "title", "value", "chart"]⟩

def comparedType : RecordType :=
  ⟨"ComparedReport", ["name", "title", "value", "reference", "chart"]⟩

def decodeSimple : Decoder Report := simpleType.decode fun f =>
  (fun name title value charts => Report.mk name title value none charts)
    <$> f.required "name" Decoder.text
    <*> f.optional "title" Decoder.text
    <*> f.required "value" Identifier.decode
    <*> f.required "chart" (Decoder.list (Decoder.choice Chart.table))

def decodeCompared : Decoder Report := comparedType.decode fun f =>
  (fun name title value reference charts => Report.mk name title value (some reference) charts)
    <$> f.required "name" Decoder.text
    <*> f.optional "title" Decoder.text
    <*> f.required "value" Identifier.decode
    <*> f.required "reference" Identifier.decode
    <*> f.required "chart" (Decoder.list (Decoder.choice Chart.table))

def decode : Decoder Report := fun at_ v => do
  let (variant, contents) ← union.split at_ v
  if variant = "Simple" then decodeSimple .held contents else decodeCompared .held contents

def shape : Shape := .union union (Shape.checkOf decode)

def encode (r : Report) : Json :=
  .object (member "report_type" (.text (if r.reference.isSome then "Compared" else "Simple"))
    ++ member "name" (.text r.name) ++ memberIf "title" .text r.title
    ++ member "value" r.value.encode ++ memberIf "reference" Identifier.encode r.reference
    ++ member "chart" (listOf (fun c => .text c.name) r.charts))

/-- The categories a report refers to, the value first. -/
def referencedCategories (r : Report) : List Identifier :=
  r.value :: r.reference.toList

end Report

end LiteratureReview
