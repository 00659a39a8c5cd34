/-
  LiteratureReview.Proofs.Text.Lowercase
  ──────────────────────────────────────
  The lowercase form of basic Latin text.

  In the first 128 characters only `A` to `Z` have another form, and none of
  these forms depends on what stands around it; so a text of such characters
  is put in lowercase letter by letter, and a second time changes nothing.
-/
import LiteratureReview.Protocol.Scalar
import LiteratureReview.Text.Lowercase
import Mathlib

namespace LiteratureReview.Text

/-- A character of the basic Latin block. -/
def IsBasic (c : Char) : Prop := c.toNat < 128

/-- The number of the lowercase form of a basic character. -/
def lowerBasic (n : Nat) : Nat := if 65 ≤ n ∧ n ≤ 90 then n + 32 else n

theorem lowerChar_basic : ∀ n < 128, lowerChar (Char.ofNat n) = [Char.ofNat (lowerBasic n)] := by
  decide +kernel

theorem lowerBasic_lt {n : Nat} (h : n < 128) : lowerBasic n < 128 := by
  unfold lowerBasic
  split <;> omega

theorem lowerBasic_lowerBasic (n : Nat) : lowerBasic (lowerBasic n) = lowerBasic n := by
  simp only [lowerBasic]
  grind

/-- The lowercase form of a basic character. -/
def lowerLetter (c : Char) : Char := Char.ofNat (lowerBasic c.toNat)

theorem toNat_ofNat_basic : ∀ n < 128, (Char.ofNat n).toNat = n := by
  decide

theorem lowerAfter_basic {cs : List Char} (basic : ∀ c ∈ cs, IsBasic c) (before : List Char) :
    lowerAfter before cs = cs.map lowerLetter := by
  induction cs generalizing before with
  | nil => rfl
  | cons c rest ih =>
    obtain ⟨first, others⟩ := List.forall_mem_cons.1 basic
    have notSigma : c ≠ 'Σ' := by
      rintro rfl
      exact absurd (show (931 : Nat) < 128 from first) (by decide)
    have form : lowerChar c = [lowerLetter c] := by
      have := lowerChar_basic c.toNat first
      rwa [Char.ofNat_toNat] at this
    rw [lowerAfter]
    simp only [notSigma, if_false, form, ih others]
    rfl

theorem isBasic_lowerLetter {c : Char} (h : IsBasic c) : IsBasic (lowerLetter c) := by
  unfold IsBasic lowerLetter
  rw [toNat_ofNat_basic _ (lowerBasic_lt h)]
  exact lowerBasic_lt h

theorem lowerLetter_lowerLetter {c : Char} (h : IsBasic c) :
    lowerLetter (lowerLetter c) = lowerLetter c := by
  unfold lowerLetter
  rw [toNat_ofNat_basic _ (lowerBasic_lt h), lowerBasic_lowerBasic]

/-- Basic text in lowercase is left as it is. -/
theorem lowercase_lowercase {s : String} (basic : ∀ c ∈ s.toList, IsBasic c) :
    lowercase (lowercase s) = lowercase s := by
  unfold lowercase
  rw [lowerAfter_basic basic, String.toList_ofList, lowerAfter_basic, List.map_map]
  · congr 1
    exact List.map_congr_left fun c mem => lowerLetter_lowerLetter (basic c mem)
  · intro c mem
    obtain ⟨d, there, rfl⟩ := List.mem_map.1 mem
    exact isBasic_lowerLetter (basic d there)

end LiteratureReview.Text

namespace LiteratureReview

/-- An identifier is basic text. -/
theorem isBasic_of_isIdentifier {s : String} (h : isIdentifier s = true) :
    ∀ c ∈ s.toList, Text.IsBasic c := by
  have basic : ∀ c : Char, continuesIdentifier c = true → Text.IsBasic c := by
    intro c letter
    simp [continuesIdentifier, Char.isAlphanum, Char.isAlpha, Char.isUpper, Char.isLower,
      Char.isDigit, UInt32.le_iff_toNat_le] at letter
    have : c.toNat = c.val.toNat := rfl
    unfold Text.IsBasic
    rcases letter with ((upper | lower) | digit) | rfl
    · omega
    · omega
    · omega
    · decide
  unfold isIdentifier at h
  cases letters : s.toList with
  | nil => nofun
  | cons c rest =>
    rw [letters, Bool.and_eq_true, List.all_eq_true] at h
    intro d mem
    rcases List.mem_cons.1 mem with rfl | later
    · have starts := h.1
      simp only [startsIdentifier, Bool.or_eq_true] at starts
      refine basic d ?_
      simp only [continuesIdentifier, Char.isAlphanum, Bool.or_eq_true]
      exact starts.imp_left .inl
    · exact basic d (h.2 d later)

end LiteratureReview
