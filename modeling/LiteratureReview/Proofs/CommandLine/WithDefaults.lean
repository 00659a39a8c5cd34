/-
  LiteratureReview.Proofs.CommandLine.WithDefaults
  ────────────────────────────────────────────────
  Defaults do not touch a document that does not need them.

  A filled document differs from the one before in the values of two keys,
  and only where nothing stood, or null, or an empty list (`DiffersInGaps`).
  The grammar demands categories, and criteria of a screening section, so an
  accepted document has no gap (`hasNoGaps_of_isProtocol`), and the commands
  do the same with it whether defaults are asked for or not
  (`defaults_touch_gaps_only`).
-/
import LiteratureReview.Proofs.CommandLine.DryRun
import LiteratureReview.Proofs.Settings.Filling

namespace LiteratureReview

open Json Grammar CommandLine

namespace DefaultsSettings

variable {v : Json}

/-- Of the two values, the second differs from the first at most in the categories of the
document and in the criteria of its screening section, and in each of them only if it was a
gap. -/
structure DiffersInGaps (v w : Json) : Prop where
  /-- What is no object is the same. -/
  plain : ¬IsObject v → w = v
  others : ∀ key, key ≠ "category" → key ≠ "screening" → w.get? key = v.get? key
  category : w.get? "category" = v.get? "category" ∨ isGap (v.get? "category") = true
  /-- A section that changes was an object and is one, with a gap at its criteria. -/
  screening : w.get? "screening" = v.get? "screening" ∨
    ∃ s t, v.get? "screening" = some s ∧ w.get? "screening" = some t ∧ IsObject s ∧ IsObject t ∧
      isGap (s.get? "exclusion_criteria") = true ∧
        ∀ key, key ≠ "exclusion_criteria" → t.get? key = s.get? key

theorem differsInGaps_fill (d : DefaultsSettings) (v : Json) : DiffersInGaps v (d.fill v) where
  plain := d.fill_of_not_isObject
  others key first second := by rw [d.get?_fill second, get?_fillGap_of_ne first]
  category := by
    rw [d.get?_fill (by decide)]
    cases gap : isGap (v.get? "category") with
    | true => exact .inr rfl
    | false => exact .inl (by rw [fillGap_of_not_isGap gap])
  screening := by
    rw [d.get?_fill_screening]
    cases found : v.get? "screening" with
    | none => exact .inl rfl
    | some s =>
      rw [Option.map_some]
      by_cases object : IsObject s
      · cases gap : isGap (s.get? "exclusion_criteria") with
        | true =>
          exact .inr ⟨s, _, rfl, rfl, object, isObject_fillGap_iff.2 object, gap,
            fun key other => get?_fillGap_of_ne other⟩
        | false => exact .inl (by rw [fillGap_of_not_isGap gap])
      · exact .inl (by rw [fillGap_of_not_isObject object])

/-- A list with elements is no gap. -/
theorem isGap_of_has {key : String} {P : Json → Prop} (has : v.Has key (IsListOf 1 P)) :
    isGap (v.get? key) = false := by
  obtain ⟨list, found, items, rfl, some, -⟩ := has
  rw [found]
  cases items with
  | nil => cases some
  | cons item rest => rfl

/-- **The grammar leaves no gaps.** -/
theorem hasNoGaps_of_isProtocol {rules : IntegerRules} (protocol : IsProtocol rules v) :
    HasNoGaps v where
  category _ := isGap_of_has protocol.categories
  criteria s found object := by
    rcases protocol.screening s found with rfl | section_
    · obtain ⟨members, same⟩ := object
      cases same
    · exact isGap_of_has section_.exclusionCriteria

/-- **An accepted document stays as it is.** -/
theorem fill_of_validate (d : DefaultsSettings) {p : ReviewProtocol} (ordered : v.IsOrdered)
    (accepted : Validator.validate v = .ok p) : d.fill v = v :=
  d.fill_of_hasNoGaps ordered
    (hasNoGaps_of_isProtocol (Validator.isProtocol_of_validate ordered.isProper accepted))

end DefaultsSettings

namespace Workspace

open DefaultsSettings

/-- **Defaults do not touch a document that does not need them.**  Filling gaps twice is filling
them once; what changes are gaps; and a document that the validator accepts does not change, so
that the commands give the same answers and leave the same database with defaults and
without. -/
theorem defaults_touch_gaps_only (s : Settings) :
    (∀ v : Json, v.IsOrdered → s.defaults.fill (s.defaults.fill v) = s.defaults.fill v) ∧
    (∀ v : Json, DiffersInGaps v (s.defaults.fill v)) ∧
    (∀ v p, v.IsOrdered → Validator.validate v = .ok p → s.defaults.fill v = v) ∧
    ∀ (w : Workspace) (path : String) v p, readDocument w.files path none = .ok v →
      Validator.validate v = .ok p → ∀ format by_ db,
        w.runOn s format by_ db (.validate path true) =
            w.runOn s format by_ db (.validate path false) ∧
          ∀ user, w.runOn s format by_ db (.install path user true) =
            w.runOn s format by_ db (.install path user false) := by
  refine ⟨fun v ordered => s.defaults.fill_fill ordered, s.defaults.differsInGaps_fill,
    fun v p ordered accepted => s.defaults.fill_of_validate ordered accepted,
    fun w path v p read accepted format by_ db => ?_⟩
  have same : readDocument w.files path (s.defaultsIf true) =
      readDocument w.files path (s.defaultsIf false) := by
    have filled := readDocument_some s.defaults read
    rw [s.defaults.fill_of_validate (isOrdered_of_readDocument read).1 accepted] at filled
    exact filled.trans read.symm
  refine ⟨?_, fun user => ?_⟩
  · rw [runOn, runOn, validateFile, validateFile, same]
  · rw [runOn, runOn, installFile, installFile, same]

/-- Every file holds the sparse document with its gaps filled. -/
def filledWorkspace : Workspace where
  files _ := .ok (DefaultsSettings.fill {} sparseDocument).print
  databases _ := .ok {}

/-- The sparse document changes once, and then it is installed the same way with defaults and
without. -/
theorem defaults_touch_gaps_only_sparse :
    DefaultsSettings.fill {} sparseDocument ≠ sparseDocument ∧
      DefaultsSettings.fill {} (DefaultsSettings.fill {} sparseDocument) =
        DefaultsSettings.fill {} sparseDocument ∧
      filledWorkspace.runOn {} .raw countingProvision {} (.install "filled.json" "ada" true) =
        filledWorkspace.runOn {} .raw countingProvision {}
          (.install "filled.json" "ada" false) := by
  have ordered : (DefaultsSettings.fill {} sparseDocument).IsOrdered := by decide +kernel
  have read : readDocument filledWorkspace.files "filled.json" none =
      .ok (DefaultsSettings.fill {} sparseDocument) :=
    readDocument_print rfl ordered (by decide +kernel)
  have facts := defaults_touch_gaps_only {}
  exact ⟨by decide +kernel, facts.2.2.1 _ _ ordered accepted_sparseDocument,
    (facts.2.2.2 filledWorkspace _ _ _ read accepted_sparseDocument _ _ _).2 "ada"⟩

end Workspace

end LiteratureReview
