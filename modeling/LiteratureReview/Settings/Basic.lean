/-
  LiteratureReview.Settings.Basic
  ───────────────────────────────
  The settings of the program, their built-in values, and the conditions a
  loaded value has to meet.
-/
import LiteratureReview.Protocol.Category
import LiteratureReview.Text.Blank

namespace LiteratureReview

open Json

/-! ## §1. Sections. -/

/-- Where projects are kept. -/
structure DatabaseSettings where
  path : String := ".sift/sift.db"
  deriving DecidableEq, Repr

/-- The field that is added to a protocol without categories. -/
structure FieldDefault where
  name : String := "notes"
  title : String := "Notes"
  /-- One of the scalar types. -/
  type : String := "text"
  deriving DecidableEq, Repr

/-- What is filled into incomplete protocols on request. -/
structure DefaultsSettings where
  extractionField : FieldDefault := {}
  /-- The criterion that is added to a screening section without any. -/
  exclusionCriterion : String := "Out of scope"
  deriving DecidableEq, Repr

/-- Settings that belong to no part in particular. -/
structure GeneralSettings where
  /-- The output format when none is asked for. -/
  output : String := "json"
  deriving DecidableEq, Repr

/-- The settings of the program. -/
structure Settings where
  database : DatabaseSettings := {}
  defaults : DefaultsSettings := {}
  general : GeneralSettings := {}
  deriving DecidableEq, Repr

/-! ## §2. JSON. -/

namespace DatabaseSettings

def record : RecordType := ⟨"DatabaseConfig", ["path"]⟩

def shape : Shape := .record record [Shape.withDefault "path" .string]

def decode : Decoder DatabaseSettings := record.decode fun f =>
  DatabaseSettings.mk <$> f.withDefault "path" ({} : DatabaseSettings).path Decoder.text

def encode (s : DatabaseSettings) : Json :=
  .object (member "path" (.text s.path))

/-- The database lives in memory only. -/
def inMemory (s : DatabaseSettings) : Bool :=
  s.path == ":memory:"

end DatabaseSettings

namespace FieldDefault

def record : RecordType := ⟨"DefaultField", ["name", "title", "type"]⟩

def shape : Shape := .record record
  [Shape.required "name" .string, Shape.required "title" .string, Shape.required "type" .string]

def decode : Decoder FieldDefault := record.decode fun f =>
  FieldDefault.mk <$> f.required "name" Decoder.text
    <*> f.required "title" Decoder.text
    <*> f.required "type" Decoder.text

def encode (d : FieldDefault) : Json :=
  .object (member "name" (.text d.name) ++ member "title" (.text d.title)
    ++ member "type" (.text d.type))

end FieldDefault

namespace DefaultsSettings

def record : RecordType := ⟨"DefaultsConfig", ["extraction_field", "exclusion_criterion"]⟩

def shape : Shape := .record record
  [Shape.withDefault "extraction_field" FieldDefault.shape,
   Shape.withDefault "exclusion_criterion" .string]

def decode : Decoder DefaultsSettings := record.decode fun f =>
  DefaultsSettings.mk <$> f.withDefault "extraction_field" {} FieldDefault.decode
    <*> f.withDefault "exclusion_criterion" ({} : DefaultsSettings).exclusionCriterion
      Decoder.text

def encode (d : DefaultsSettings) : Json :=
  .object (member "extraction_field" d.extractionField.encode
    ++ member "exclusion_criterion" (.text d.exclusionCriterion))

end DefaultsSettings

namespace GeneralSettings

def record : RecordType := ⟨"GeneralConfig", ["output"]⟩

def shape : Shape := .record record [Shape.withDefault "output" .string]

def decode : Decoder GeneralSettings := record.decode fun f =>
  GeneralSettings.mk <$> f.withDefault "output" ({} : GeneralSettings).output Decoder.text

def encode (s : GeneralSettings) : Json :=
  .object (member "output" (.text s.output))

end GeneralSettings

namespace Settings

def record : RecordType := ⟨"SiftConfig", ["database", "defaults", "general"]⟩

def shape : Shape := .record record
  [Shape.withDefault "database" DatabaseSettings.shape,
   Shape.withDefault "defaults" DefaultsSettings.shape,
   Shape.withDefault "general" GeneralSettings.shape]

def decode : Decoder Settings := record.decode fun f =>
  Settings.mk <$> f.withDefault "database" {} DatabaseSettings.decode
    <*> f.withDefault "defaults" {} DefaultsSettings.decode
    <*> f.withDefault "general" {} GeneralSettings.decode

def encode (s : Settings) : Json :=
  .object (member "database" s.database.encode ++ member "defaults" s.defaults.encode
    ++ member "general" s.general.encode)

end Settings

/-! ## §3. Conditions. -/

/-- A setting that cannot be used. -/
structure InvalidSetting where
  field : String
  reason : String
  deriving DecidableEq, Repr

/-- The wording of an unusable setting. -/
def InvalidSetting.message (e : InvalidSetting) : String :=
  "Invalid configuration value for '" ++ e.field ++ "': " ++ e.reason

/-- The output formats by name. -/
def outputFormats : List String := ["json", "raw"]

/-- A condition on a setting. -/
def ensure (holds : Bool) (field reason : String) : Except InvalidSetting Unit :=
  if holds then .ok () else .error ⟨field, reason⟩

/-- A list of names between commas. -/
def commaList (names : List String) : String :=
  ", ".intercalate names

namespace Settings

/-- The first condition that does not hold, if any. -/
def validate (s : Settings) : Except InvalidSetting Unit := do
  ensure (!Text.isBlankText s.database.path) "database.path" "must not be empty"
  let field := s.defaults.extractionField
  ensure (isIdentifier field.name) "defaults.extraction_field.name"
    ("`" ++ field.name ++ "` is not an identifier")
  ensure ((ScalarType.table.map (·.1)).contains field.type) "defaults.extraction_field.type"
    ("expected one of " ++ commaList (ScalarType.table.map (·.1)))
  ensure (!Text.isBlankText s.defaults.exclusionCriterion) "defaults.exclusion_criterion"
    "must not be empty"
  ensure (outputFormats.contains s.general.output) "general.output"
    ("expected one of " ++ commaList outputFormats)

end Settings

end LiteratureReview
