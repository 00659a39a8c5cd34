/-
  LiteratureReview.Proofs.Settings.Filling
  ────────────────────────────────────────
  What filling gaps changes, and what it leaves.

  A document has a value under each key of the filled document that it had
  before, the gaps apart (`get?_fill`, `get?_fill_screening`).  One without
  gaps stays as it is (`fill_of_hasNoGaps`), as does one whose gaps have been
  filled (`fill_fill`).
-/
import LiteratureReview.Proofs.Protocol.Grammar
import LiteratureReview.Proofs.Settings.Gaps

namespace LiteratureReview

open Json Grammar

/-! ## §1. Setting a key. -/

namespace Json

variable {v value : Json} {key k : String} {members : List (String × Json)}

/-- Members in order stay as they are when a key is given the value that it has. -/
theorem insertMember_of_lookup (sorted : (members.map (·.1)).Pairwise (· < ·))
    (there : members.lookup key = some value) : insertMember key value members = members := by
  induction members with
  | nil => cases there
  | cons m rest ih =>
    obtain ⟨l, w⟩ := m
    rw [List.map_cons, List.pairwise_cons] at sorted
    rw [lookup_cons_ite] at there
    rw [insertMember]
    by_cases same : key = l
    · subst same
      rw [if_pos rfl] at there
      cases there
      rw [if_neg (lt_irrefl _), if_pos rfl]
    · rw [if_neg same] at there
      have later : l < key := sorted.1 key (List.mem_map_of_mem (mem_of_lookup there))
      rw [if_neg (not_lt_of_gt later), if_neg same, ih sorted.2 there]

theorem get?_set (object : IsObject v) :
    (v.set key value).get? k = if k = key then some value else v.get? k := by
  obtain ⟨members, rfl⟩ := object
  exact lookup_insertMember k

theorem isObject_set (object : IsObject v) : IsObject (v.set key value) := by
  obtain ⟨members, rfl⟩ := object
  exact ⟨_, rfl⟩

/-- A value in order stays as it is when a key is given the value that it has. -/
theorem set_of_get? (ordered : v.IsOrdered) (there : v.get? key = some value) :
    v.set key value = v := by
  obtain ⟨members, rfl, found⟩ := get?_eq_some_iff.1 there
  exact congrArg Json.object (insertMember_of_lookup (isOrdered_object_iff.1 ordered).1 found)

end Json

/-! ## §2. One gap. -/

namespace DefaultsSettings

variable {v value : Json} {key k : String}

theorem fillGap_of_not_isObject (plain : ¬IsObject v) : fillGap key value v = v := by
  cases v with
  | object members => exact absurd ⟨members, rfl⟩ plain
  | _ => rfl

theorem fillGap_of_isGap (object : IsObject v) (gap : isGap (v.get? key) = true) :
    fillGap key value v = v.set key value := by
  obtain ⟨members, rfl⟩ := object
  exact if_pos gap

theorem fillGap_of_not_isGap (full : isGap (v.get? key) = false) : fillGap key value v = v := by
  cases v with
  | object members =>
    have other : ¬isGap (members.lookup key) = true := Bool.eq_false_iff.1 full
    exact if_neg other
  | _ => rfl

theorem isObject_fillGap_iff : IsObject (fillGap key value v) ↔ IsObject v := by
  by_cases object : IsObject v
  · cases gap : isGap (v.get? key) with
    | true => exact ⟨fun _ => object, fun _ => fillGap_of_isGap object gap ▸ isObject_set object⟩
    | false => rw [fillGap_of_not_isGap gap]
  · rw [fillGap_of_not_isObject object]

/-- The value of one key changes, where there was a gap. -/
theorem get?_fillGap (object : IsObject v) :
    (fillGap key value v).get? k =
      if k = key ∧ isGap (v.get? key) = true then some value else v.get? k := by
  cases gap : isGap (v.get? key) with
  | true => simp only [fillGap_of_isGap object gap, get?_set object, and_true]
  | false => simp only [fillGap_of_not_isGap gap, Bool.false_eq_true, and_false, if_false]

theorem get?_fillGap_of_ne (other : k ≠ key) : (fillGap key value v).get? k = v.get? k := by
  by_cases object : IsObject v
  · rw [get?_fillGap object, if_neg fun both => other both.1]
  · rw [fillGap_of_not_isObject object]

/-! ## §3. Documents. -/

variable (d : DefaultsSettings)

theorem fillScreening_of_isObject {s : Json} (found : v.get? "screening" = some s)
    (object : IsObject s) :
    d.fillScreening v = v.set "screening" (fillGap "exclusion_criteria" d.criteria s) := by
  obtain ⟨members, rfl⟩ := object
  simp only [fillScreening, found]

theorem fillScreening_of_not_isObject (plain : ∀ s, v.get? "screening" = some s → ¬IsObject s) :
    d.fillScreening v = v := by
  unfold fillScreening
  split
  next members found => exact absurd ⟨members, rfl⟩ (plain _ found)
  next => rfl

theorem isObject_fillScreening_iff : IsObject (d.fillScreening v) ↔ IsObject v := by
  unfold fillScreening
  split
  next members found =>
    have object := isObject_of_get? found
    exact ⟨fun _ => object, fun _ => isObject_set object⟩
  next => exact Iff.rfl

theorem isObject_fill_iff : IsObject (d.fill v) ↔ IsObject v :=
  (d.isObject_fillScreening_iff).trans isObject_fillGap_iff

theorem fill_of_not_isObject (plain : ¬IsObject v) : d.fill v = v := by
  rw [fill, fillGap_of_not_isObject plain]
  exact fillScreening_of_not_isObject d
    fun s found => absurd (isObject_of_get? found) plain

/-- Filling a document leaves every key but two. -/
theorem get?_fill (other : key ≠ "screening") :
    (d.fill v).get? key = (fillGap "category" d.categories v).get? key := by
  unfold fill fillScreening
  split
  next members found => rw [get?_set (isObject_of_get? found), if_neg other]
  next => rfl

/-- Filling a document fills the gap in its screening section. -/
theorem get?_fill_screening :
    (d.fill v).get? "screening" =
      (v.get? "screening").map (fillGap "exclusion_criteria" d.criteria) := by
  have before : (fillGap "category" d.categories v).get? "screening" = v.get? "screening" :=
    get?_fillGap_of_ne (by decide)
  cases found : v.get? "screening" with
  | none =>
    rw [fill, fillScreening_of_not_isObject, before, found]
    · rfl
    · rw [before, found]
      nofun
  | some s =>
    rw [found] at before
    by_cases object : IsObject s
    · rw [fill, fillScreening_of_isObject d before object,
        get?_set (isObject_of_get? before), if_pos rfl, Option.map_some]
    · rw [Option.map_some, fillGap_of_not_isObject object, fill, fillScreening_of_not_isObject,
        before]
      rintro t same
      rw [before] at same
      cases same
      exact object

/-- The document has categories, and criteria if it has a screening section. -/
structure HasNoGaps (v : Json) : Prop where
  category : IsObject v → isGap (v.get? "category") = false
  criteria : ∀ s, v.get? "screening" = some s → IsObject s →
    isGap (s.get? "exclusion_criteria") = false

/-- **A document without gaps stays as it is.** -/
theorem fill_of_hasNoGaps (ordered : v.IsOrdered) (full : HasNoGaps v) : d.fill v = v := by
  by_cases object : IsObject v
  · rw [fill, fillGap_of_not_isGap (full.category object)]
    by_cases part : ∃ s, v.get? "screening" = some s ∧ IsObject s
    · obtain ⟨s, found, inner⟩ := part
      rw [fillScreening_of_isObject d found inner,
        fillGap_of_not_isGap (full.criteria s found inner), set_of_get? ordered found]
    · exact fillScreening_of_not_isObject d fun s found inner => part ⟨s, found, inner⟩
  · exact d.fill_of_not_isObject object

/-- What is put into a gap is no gap. -/
theorem isGap_get?_fillGap (object : IsObject v) (full : isGap (some value) = false) :
    isGap ((fillGap key value v).get? key) = false := by
  rw [get?_fillGap object]
  split
  next => exact full
  next kept =>
    rw [Bool.eq_false_iff]
    exact fun gap => kept ⟨rfl, gap⟩

/-- **A document whose gaps are filled has none.** -/
theorem hasNoGaps_fill : HasNoGaps (d.fill v) where
  category object := by
    rw [d.get?_fill (by decide)]
    exact isGap_get?_fillGap (d.isObject_fill_iff.1 object) rfl
  criteria t found object := by
    rw [get?_fill_screening] at found
    obtain ⟨s, -, rfl⟩ := Option.map_eq_some_iff.1 found
    exact isGap_get?_fillGap (isObject_fillGap_iff.1 object) rfl

/-- **Filling gaps a second time changes nothing.** -/
theorem fill_fill (ordered : v.IsOrdered) : d.fill (d.fill v) = d.fill v :=
  d.fill_of_hasNoGaps (d.isOrdered_fill ordered) d.hasNoGaps_fill

end DefaultsSettings

end LiteratureReview
