/-
  LiteratureReview.Protocol.Document
  ──────────────────────────────────
  The protocol document as a whole.
-/
import LiteratureReview.Protocol.Category
import LiteratureReview.Text.Lowercase

namespace LiteratureReview

open Json

/-- A protocol for a systematic literature review. -/
structure ReviewProtocol where
  project : ProjectSection
  screening : Option ScreeningSection
  quality : Option QualitySection
  categories : List Category
  reporting : Option (List Report)

namespace ReviewProtocol

/-! ## §1. JSON. -/

def type : RecordType := ⟨"ReviewProtocol",
  ["project", "screening", "quality_assess", "category", "reporting"]⟩

def shape : Shape := .record type
  [Shape.required "project" ProjectSection.shape,
   Shape.optional "screening" ScreeningSection.shape,
   Shape.optional "quality_assess" QualitySection.shape,
   Shape.required "category" (.list Category.shape),
   Shape.optional "reporting" (.list Report.shape)]

def decode : Decoder ReviewProtocol := type.decode fun f =>
  ReviewProtocol.mk <$> f.required "project" ProjectSection.decode
    <*> f.optional "screening" ScreeningSection.decode
    <*> f.optional "quality_assess" QualitySection.decode
    <*> f.required "category" (Decoder.list Category.decode)
    <*> f.optional "reporting" (Decoder.list Report.decode)

def encode (p : ReviewProtocol) : Json :=
  .object (member "project" p.project.encode
    ++ memberIf "screening" ScreeningSection.encode p.screening
    ++ memberIf "quality_assess" QualitySection.encode p.quality
    ++ member "category" (.list (Category.encodeAll p.categories))
    ++ memberIf "reporting" (listOf Report.encode) p.reporting)

/-- Read a protocol from a text. -/
def ofText (s : String) : Except TextError ReviewProtocol :=
  readText shape decode s

/-- A protocol as text on one line. -/
def toText (p : ReviewProtocol) : String :=
  p.encode.print

/-! ## §2. What the document says. -/

/-- The project label: the short name in lowercase. -/
def label (p : ReviewProtocol) : String :=
  Text.lowercase p.project.shortName.text

/-- There is a screening section. -/
def screeningEnabled (p : ReviewProtocol) : Bool := p.screening.isSome

/-- There is a quality section. -/
def qualityEnabled (p : ReviewProtocol) : Bool := p.quality.isSome

/-- There is at least one category. -/
def extractionEnabled (p : ReviewProtocol) : Bool := !p.categories.isEmpty

/-- The reports, none when the section is left out. -/
def reports (p : ReviewProtocol) : List Report := p.reporting.getD []

/-- Every category name, each before those below it. -/
def categoryNames (p : ReviewProtocol) : List Identifier := Category.namesOf p.categories

end ReviewProtocol

end LiteratureReview
