/-
  LiteratureReview.Proofs.Settings.Conditions
  ───────────────────────────────────────────
  The settings one by one, and the conditions that they meet together.

  A complaint names the setting it is about by the keys that lead to it
  (`exists_setting_of_validate`).  The built-in settings meet the conditions
  (`validate_builtIn`), and whatever meets them names an output format
  (`isSome_ofSetting_of_validate`).
-/
import LiteratureReview.CommandLine.Format
import LiteratureReview.Settings.Basic

namespace LiteratureReview

/-! ## §1. Settings one by one. -/

/-- A setting: a text that can be given by itself. -/
inductive Setting where
  | databasePath
  | fieldName
  | fieldTitle
  | fieldType
  | exclusionCriterion
  | output
  deriving DecidableEq, Repr

/-- The keys that lead to a setting. -/
def Setting.keys : Setting → List String
  | .databasePath => ["database", "path"]
  | .fieldName => ["defaults", "extraction_field", "name"]
  | .fieldTitle => ["defaults", "extraction_field", "title"]
  | .fieldType => ["defaults", "extraction_field", "type"]
  | .exclusionCriterion => ["defaults", "exclusion_criterion"]
  | .output => ["general", "output"]

/-- The keys that lead to a setting, as complaints write them. -/
def Setting.name (k : Setting) : String := ".".intercalate k.keys

namespace Settings

/-- The value of a setting. -/
def value (s : Settings) : Setting → String
  | .databasePath => s.database.path
  | .fieldName => s.defaults.extractionField.name
  | .fieldTitle => s.defaults.extractionField.title
  | .fieldType => s.defaults.extractionField.type
  | .exclusionCriterion => s.defaults.exclusionCriterion
  | .output => s.general.output

/-! ## §2. Conditions. -/

theorem ensure_bind_eq_ok_iff {holds : Bool} {field reason : String}
    {next : Except InvalidSetting Unit} :
    (do ensure holds field reason; next) = .ok () ↔ holds = true ∧ next = .ok () := by
  cases holds <;> simp [ensure, bind, Except.bind]

theorem ensure_eq_ok_iff {holds : Bool} {field reason : String} :
    ensure holds field reason = .ok () ↔ holds = true := by
  cases holds <;> simp [ensure]

/-- The conditions that settings have to meet. -/
theorem validate_eq_ok_iff {s : Settings} :
    s.validate = .ok () ↔
      (!Text.isBlankText s.database.path) = true ∧
        isIdentifier s.defaults.extractionField.name = true ∧
        (ScalarType.table.map (·.1)).contains s.defaults.extractionField.type = true ∧
        (!Text.isBlankText s.defaults.exclusionCriterion) = true ∧
        outputFormats.contains s.general.output = true := by
  simp only [validate, ensure_bind_eq_ok_iff, ensure_eq_ok_iff]

/-- The built-in settings can be used. -/
theorem validate_builtIn : ({} : Settings).validate = .ok () :=
  rfl

theorem field_of_ensure {holds : Bool} {field reason : String} {e : InvalidSetting}
    (failed : ensure holds field reason = .error e) : e.field = field := by
  cases holds <;> cases failed
  rfl

/-- A condition that does not hold is complained of, or a later one is. -/
theorem field_of_ensure_bind {holds : Bool} {field reason : String} {e : InvalidSetting}
    {next : Except InvalidSetting Unit}
    (failed : (do ensure holds field reason; next) = .error e) :
    e.field = field ∨ next = .error e := by
  cases holds with
  | true => exact .inr failed
  | false =>
    cases failed
    exact .inl rfl

/-- **A complaint names a setting** by the keys that lead to it. -/
theorem exists_setting_of_validate {s : Settings} {e : InvalidSetting}
    (failed : s.validate = .error e) : ∃ k : Setting, e.field = k.name := by
  rcases field_of_ensure_bind failed with named | failed
  · exact ⟨.databasePath, named⟩
  rcases field_of_ensure_bind failed with named | failed
  · exact ⟨.fieldName, named⟩
  rcases field_of_ensure_bind failed with named | failed
  · exact ⟨.fieldType, named⟩
  rcases field_of_ensure_bind failed with named | failed
  · exact ⟨.exclusionCriterion, named⟩
  exact ⟨.output, field_of_ensure failed⟩

/-- **Settings that can be used name an output format.** -/
theorem isSome_ofSetting_of_validate {s : Settings} (valid : s.validate = .ok ()) :
    (OutputFormat.ofSetting s.general.output).isSome = true := by
  obtain ⟨-, -, -, -, format⟩ := validate_eq_ok_iff.1 valid
  have named : ∀ name ∈ outputFormats, (OutputFormat.ofSetting name).isSome = true := by
    decide +kernel
  exact named _ (List.contains_iff_mem.1 format)

end Settings

end LiteratureReview
