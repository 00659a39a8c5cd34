/-
  LiteratureReview.Proofs.Decimal.Rounding
  ────────────────────────────────────────
  Which fractions are rounded to a double.

  The doubles next to a finite double x bound an interval of rationals,
  `Double.Near`; its ends belong to it when the significand is even.  Every
  fraction inside is rounded to x, the sign taken from elsewhere:

    • `roundHalfEven_eq` — rounding to an integer,
    • `lastPlace_eq` — the last place of the doubles around a fraction,
    • `ofRatio_eq` — rounding to a double,
    • `ofDecimal_eq` — reading a decimal,
    • `isFinite_of_ofDecimal` — what is read is finite.
-/
import LiteratureReview.Decimal.Shortest
import Mathlib.Algebra.Order.Field.Power
import Mathlib.Data.Rat.Cast.Order
import Mathlib.Tactic.FieldSimp
import Mathlib.Tactic.Linarith
import Mathlib.Tactic.NormNum
import Mathlib.Tactic.Positivity
import Mathlib.Tactic.Ring

namespace LiteratureReview.Decimal

/-! ## §1. Powers. -/

theorem cast_twoTo (n : Nat) : (twoTo n : ℚ) = 2 ^ n := by
  show ((2 ^ n : Nat) : ℚ) = 2 ^ n
  push_cast
  rfl

theorem cast_tenTo (n : Nat) : (tenTo n : ℚ) = 10 ^ n := by
  show ((10 ^ n : Nat) : ℚ) = 10 ^ n
  push_cast
  rfl

theorem twoTo_pos (n : Nat) : 0 < twoTo n := Nat.pow_pos (by decide)

theorem tenTo_pos (n : Nat) : 0 < tenTo n := Nat.pow_pos (by decide)

/-- A power with an integer exponent, of which one half is always trivial. -/
theorem zpow_eq_div (b : ℚ) (k : ℤ) : b ^ k = b ^ k.toNat / b ^ (-k).toNat := by
  obtain ⟨n, rfl | rfl⟩ := k.eq_nat_or_neg
  · simp
  · simp

theorem two_zpow (k : ℤ) : (2 : ℚ) ^ k = twoTo k.toNat / twoTo (-k).toNat := by
  rw [cast_twoTo, cast_twoTo]
  exact zpow_eq_div _ k

theorem ten_zpow (k : ℤ) : (10 : ℚ) ^ k = tenTo k.toNat / tenTo (-k).toNat := by
  rw [cast_tenTo, cast_tenTo]
  exact zpow_eq_div _ k

theorem two_zpow_pos (k : ℤ) : (0 : ℚ) < 2 ^ k := by positivity

/-- Powers of two are ordered as their exponents. -/
theorem two_zpow_lt_iff {j k : ℤ} : (2 : ℚ) ^ j < 2 ^ k ↔ j < k :=
  zpow_lt_zpow_iff_right₀ (by norm_num)

theorem two_zpow_succ (k : ℤ) : (2 : ℚ) ^ (k + 1) = 2 * 2 ^ k := by
  rw [zpow_add₀ (by norm_num), zpow_one, mul_comm]

theorem two_zpow_add (k : ℤ) (n : Nat) : (2 : ℚ) ^ (k + n) = 2 ^ n * 2 ^ k := by
  rw [zpow_add₀ (by norm_num), zpow_natCast, mul_comm]

/-- One power of ten is above three powers of two. -/
theorem two_zpow_lt_ten_zpow {k n : Nat} (h : k < 3 * n) : (2 : ℚ) ^ (k : ℤ) < 10 ^ (n : ℤ) := by
  rw [zpow_natCast, zpow_natCast]
  calc (2 : ℚ) ^ k < 2 ^ (3 * n) := pow_lt_pow_right₀ (by norm_num) h
    _ = 8 ^ n := by rw [pow_mul]; norm_num
    _ ≤ 10 ^ n := pow_le_pow_left₀ (by norm_num) (by norm_num) n

/-! ## §2. Rounding to an integer. -/

namespace Double

/-- The integer within one half of a quotient is the quotient or the next one. -/
theorem quotient_near {q r den m : Nat} (small : r < den)
    (low : 2 * m * den ≤ 2 * (den * q + r) + den)
    (high : 2 * (den * q + r) ≤ 2 * m * den + den) : m = q ∨ m = q + 1 := by
  have least : q ≤ m := by
    by_contra h
    have : (m + 1) * den ≤ q * den := Nat.mul_le_mul_right den (by omega)
    nlinarith
  have most : m ≤ q + 1 := by
    by_contra h
    have : (q + 2) * den ≤ m * den := Nat.mul_le_mul_right den (by omega)
    nlinarith
  omega

/-- The integer within one half of a fraction is what it rounds to; of two
such integers it is the even one. -/
theorem roundHalfEven_of_bounds {num den m : Nat} (hden : 0 < den)
    (low : 2 * m * den ≤ 2 * num + den) (high : 2 * num ≤ 2 * m * den + den)
    (odd : m % 2 = 1 → 2 * m * den < 2 * num + den ∧ 2 * num < 2 * m * den + den) :
    roundHalfEven num den = m := by
  have split : den * (num / den) + num % den = num := Nat.div_add_mod num den
  have small : num % den < den := Nat.mod_lt num hden
  unfold roundHalfEven
  generalize num / den = q at *
  generalize num % den = r at *
  subst split
  rcases quotient_near small low high with rfl | rfl
  · -- rounded down
    have half : 2 * r ≤ den := by nlinarith
    have tie : 2 * r = den → m % 2 = 0 := by
      intro h
      by_contra uneven
      obtain ⟨-, below⟩ := odd (by omega)
      nlinarith
    rw [if_neg]
    rcases Nat.lt_or_eq_of_le half with h | h
    · have : ¬den < 2 * r := by omega
      simp [this]
      omega
    · simp [h, tie h]
  · -- rounded up
    have half : den ≤ 2 * r := by nlinarith
    have tie : 2 * r = den → q % 2 = 1 := by
      intro h
      by_contra even
      obtain ⟨above, -⟩ := odd (by omega)
      nlinarith
    rw [if_pos]
    rcases Nat.lt_or_eq_of_le half with h | h
    · simp [h]
    · simp [← h, tie h.symm]

/-- The same, with the bounds as fractions. -/
theorem roundHalfEven_eq {num den m : Nat} (hden : 0 < den)
    (low : (m : ℚ) - 1 / 2 ≤ num / den) (high : (num : ℚ) / den ≤ m + 1 / 2)
    (odd : m % 2 = 1 → (m : ℚ) - 1 / 2 < num / den ∧ (num : ℚ) / den < m + 1 / 2) :
    roundHalfEven num den = m := by
  have hden' : (0 : ℚ) < den := by exact_mod_cast hden
  apply roundHalfEven_of_bounds hden
  · rw [le_div_iff₀ hden'] at low
    have h : (2 * m * den : ℚ) ≤ 2 * num + den := by linarith
    exact_mod_cast h
  · rw [div_le_iff₀ hden'] at high
    have h : (2 * num : ℚ) ≤ 2 * m * den + den := by linarith
    exact_mod_cast h
  · intro h
    obtain ⟨above, below⟩ := odd h
    rw [lt_div_iff₀ hden'] at above
    rw [div_lt_iff₀ hden'] at below
    constructor
    · have h : (2 * m * den : ℚ) < 2 * num + den := by linarith
      exact_mod_cast h
    · have h : (2 * num : ℚ) < 2 * m * den + den := by linarith
      exact_mod_cast h

/-! ## §3. The last place of the doubles around a fraction. -/

/-- The binary logarithms bound a fraction from both sides. -/
theorem log2_bounds {num den : Nat} (hnum : num ≠ 0) (hden : den ≠ 0) :
    (2 : ℚ) ^ ((num.log2 : ℤ) - den.log2 - 1) < num / den ∧
      (num : ℚ) / den < 2 ^ ((num.log2 : ℤ) - den.log2 + 1) := by
  have hden' : (0 : ℚ) < den := by exact_mod_cast Nat.pos_of_ne_zero hden
  have num_low : (2 : ℚ) ^ (num.log2 : ℤ) ≤ num := by exact_mod_cast Nat.log2_self_le hnum
  have num_high : (num : ℚ) < 2 ^ ((num.log2 : ℤ) + 1) := by exact_mod_cast Nat.lt_log2_self
  have den_low : (2 : ℚ) ^ (den.log2 : ℤ) ≤ den := by exact_mod_cast Nat.log2_self_le hden
  have den_high : (den : ℚ) < 2 ^ ((den.log2 : ℤ) + 1) := by exact_mod_cast Nat.lt_log2_self
  -- each number lies between its leading power and the next one
  constructor
  · rw [lt_div_iff₀ hden']
    calc (2 : ℚ) ^ ((num.log2 : ℤ) - den.log2 - 1) * den
        < 2 ^ ((num.log2 : ℤ) - den.log2 - 1) * 2 ^ ((den.log2 : ℤ) + 1) :=
          mul_lt_mul_of_pos_left den_high (two_zpow_pos _)
      _ = 2 ^ (num.log2 : ℤ) := by
          rw [← zpow_add₀ (by norm_num)]
          congr 1
          ring
      _ ≤ num := num_low
  · rw [div_lt_iff₀ hden']
    calc (num : ℚ) < 2 ^ ((num.log2 : ℤ) + 1) := num_high
      _ = 2 ^ ((num.log2 : ℤ) - den.log2 + 1) * 2 ^ (den.log2 : ℤ) := by
          rw [← zpow_add₀ (by norm_num)]
          congr 1
          ring
      _ ≤ 2 ^ ((num.log2 : ℤ) - den.log2 + 1) * den :=
          mul_le_mul_of_nonneg_left den_low (two_zpow_pos _).le

/-- The comparison that settles between the two candidates. -/
theorem scaled_lt_iff {num den : Nat} (hden : den ≠ 0) (g : ℤ) :
    ((if 0 ≤ g then num else num * twoTo (-g).toNat) <
        (if 0 ≤ g then den * twoTo g.toNat else den) * twoTo 52) ↔
      (num : ℚ) / den < 2 ^ (g + 52) := by
  have hden' : (0 : ℚ) < den := by exact_mod_cast Nat.pos_of_ne_zero hden
  have cast : ∀ {a b : Nat}, a < b ↔ (a : ℚ) < b := fun {a b} => by exact_mod_cast Iff.rfl
  rw [div_lt_iff₀ hden', zpow_add₀ (by norm_num), cast]
  obtain ⟨n, rfl | rfl⟩ := g.eq_nat_or_neg
  · simp only [Int.natCast_nonneg, if_true, Int.toNat_natCast, Nat.cast_mul, cast_twoTo,
      zpow_natCast]
    rw [show (2 : ℚ) ^ n * 2 ^ (52 : ℤ) * den = den * 2 ^ n * 2 ^ 52 by norm_cast; ring]
  · have hn : (0 : ℚ) < 2 ^ n := by positivity
    rcases Nat.eq_zero_or_pos n with rfl | pos
    · simp [cast_twoTo, mul_comm]
    · have neg : ¬(0 ≤ -(n : ℤ)) := by omega
      simp only [neg, if_false, neg_neg, Int.toNat_natCast, Nat.cast_mul, cast_twoTo, zpow_neg,
        zpow_natCast]
      have cleared : ((2 : ℚ) ^ n)⁻¹ * 2 ^ (52 : ℤ) * den = den * 2 ^ 52 / 2 ^ n := by
        have : (2 : ℚ) ^ (52 : ℤ) = 2 ^ 52 := zpow_natCast 2 52
        rw [this]
        ring
      rw [cleared, lt_div_iff₀ hn]

/-- The last place is the one that leaves fifty-three bits before it, or the
least there is. -/
theorem lastPlace_eq {num den : Nat} {k : ℤ} (hnum : num ≠ 0) (hden : den ≠ 0)
    (low : (2 : ℚ) ^ (k + 52) ≤ num / den ∨ k = -1074)
    (high : (num : ℚ) / den < 2 ^ (k + 53)) (least : -1074 ≤ k) : lastPlace num den = k := by
  obtain ⟨above, below⟩ := log2_bounds hnum hden
  -- the logarithms leave two candidates, and one comparison decides between them
  have exact_bounds : ∃ e : ℤ, lastPlace num den = max e (-1074) ∧
      (2 : ℚ) ^ (e + 52) ≤ num / den ∧ (num : ℚ) / den < 2 ^ (e + 53) := by
    unfold lastPlace
    by_cases h : (num : ℚ) / den < 2 ^ (((num.log2 : ℤ) - den.log2 - 52) + 52)
    · refine ⟨(num.log2 : ℤ) - den.log2 - 52 - 1, ?_, ?_, ?_⟩
      · rw [← scaled_lt_iff hden] at h
        simp only [h, if_true]
      · have : (num.log2 : ℤ) - den.log2 - 52 - 1 + 52 = num.log2 - den.log2 - 1 := by ring
        rw [this]
        exact above.le
      · have : (num.log2 : ℤ) - den.log2 - 52 - 1 + 53 = num.log2 - den.log2 - 52 + 52 := by ring
        rw [this]
        exact h
    · refine ⟨(num.log2 : ℤ) - den.log2 - 52, ?_, not_lt.1 h, ?_⟩
      · rw [← scaled_lt_iff hden] at h
        simp only [h, if_false]
      · have : (num.log2 : ℤ) - den.log2 - 52 + 53 = num.log2 - den.log2 + 1 := by ring
        rw [this]
        exact below
  obtain ⟨e, rfl', e_low, e_high⟩ := exact_bounds
  rw [rfl']
  have e_le : e ≤ k := by
    have := two_zpow_lt_iff.1 (lt_of_le_of_lt e_low high)
    omega
  rcases low with normal | rfl
  · have := two_zpow_lt_iff.1 (lt_of_le_of_lt normal e_high)
    omega
  · omega

/-! ## §4. The bits of a double. -/

theorem twoTo_52 : twoTo 52 = 4503599627370496 := by decide

theorem fractionField_lt (x : Double) : x.fractionField < twoTo 52 := Nat.mod_lt _ (twoTo_pos 52)

/-- The magnitude is the two fields side by side. -/
theorem magnitude_eq_fields (x : Double) :
    x.magnitude = x.exponentField * twoTo 52 + x.fractionField := by
  rw [mul_comm]
  exact (Nat.div_add_mod x.magnitude (twoTo 52)).symm

/-- The magnitude out of the power and the significand. -/
theorem magnitude_eq_place (x : Double) :
    x.magnitude = (x.power + 1074).toNat * twoTo 52 + x.significand := by
  rw [magnitude_eq_fields]
  unfold power significand
  rw [twoTo_52]
  split <;> omega

/-- The bits are the sign and the magnitude. -/
theorem ofParts_magnitude (x : Double) : ofParts x.isNegative x.magnitude = x := by
  have small : x.bits.toNat < 2 ^ 64 := x.bits.toNat_lt
  have h63 : twoTo 63 = 9223372036854775808 := by decide
  have whole : (if x.isNegative then x.magnitude + twoTo 63 else x.magnitude) = x.bits.toNat := by
    unfold isNegative magnitude
    rw [h63]
    by_cases h : 9223372036854775808 ≤ x.bits.toNat <;> simp [h] <;> omega
  unfold ofParts
  rw [whole]
  simp

theorem significand_lt (x : Double) : x.significand < 2 ^ 53 := by
  have := x.fractionField_lt
  rw [twoTo_52] at this
  unfold significand
  rw [twoTo_52]
  split <;> omega

/-- A magnitude other than zero has a significand other than zero. -/
theorem significand_pos {x : Double} (h : x.isZero = false) : 0 < x.significand := by
  have hm : x.magnitude ≠ 0 := by simpa [isZero] using h
  have fields := x.magnitude_eq_fields
  rw [twoTo_52] at fields
  unfold significand
  rw [twoTo_52]
  split <;> omega

theorem power_ge (x : Double) : -1074 ≤ x.power := by
  unfold power
  split <;> omega

theorem exponentField_lt {x : Double} (h : x.isFinite = true) : x.exponentField < 2047 := by
  simpa [isFinite] using h

theorem cast_significand_le (x : Double) : (x.significand : ℚ) ≤ 2 ^ 53 - 1 := by
  have h : ((x.significand + 1 : Nat) : ℚ) ≤ (2 ^ 53 : Nat) := by exact_mod_cast x.significand_lt
  push_cast at h
  linarith

/-- The magnitudes of finite doubles are below that of the infinities. -/
theorem magnitude_lt {x : Double} (finite : x.isFinite = true) :
    x.magnitude < 2047 * twoTo 52 := by
  have field := exponentField_lt finite
  have fraction := x.fractionField_lt
  rw [magnitude_eq_fields]
  rw [twoTo_52] at fraction ⊢
  omega

/-! ## §5. The fractions around a double. -/

/-- The least fraction that could be rounded to a double, sign apart.  Below a
power of two the doubles are twice as dense. -/
def lowEnd (x : Double) : ℚ :=
  (x.significand - if x.fractionField = 0 ∧ 1 < x.exponentField then 1 / 4 else 1 / 2)
    * 2 ^ x.power

/-- The greatest fraction that could be rounded to a double, sign apart. -/
def highEnd (x : Double) : ℚ := (x.significand + 1 / 2) * 2 ^ x.power

/-- A fraction is rounded to a double, sign apart: it lies between the ends,
and is neither of them when the significand is odd. -/
structure Near (x : Double) (v : ℚ) : Prop where
  low : x.lowEnd ≤ v
  high : v ≤ x.highEnd
  odd : x.significand % 2 = 1 → x.lowEnd < v ∧ v < x.highEnd

/-- Scaling a fraction to a place divides it by the power of two of the place. -/
theorem scaled_eq (num den : Nat) (k : ℤ) :
    (if 0 ≤ k then roundHalfEven num (den * twoTo k.toNat)
      else roundHalfEven (num * twoTo (-k).toNat) den) =
    roundHalfEven (num * twoTo (-k).toNat) (den * twoTo k.toNat) := by
  split
  · have : (-k).toNat = 0 := by omega
    simp [this, twoTo]
  · have : k.toNat = 0 := by omega
    simp [this, twoTo]

/-- The double of a fraction whose last place and last digit are known. -/
theorem ofRatio_of_place {num den m : Nat} {k : ℤ} (negative : Bool) (hnum : num ≠ 0)
    (hden : den ≠ 0) (place : lastPlace num den = k)
    (low : ((m : ℚ) - 1 / 2) * 2 ^ k ≤ num / den) (high : (num : ℚ) / den ≤ (m + 1 / 2) * 2 ^ k)
    (odd : m % 2 = 1 →
      ((m : ℚ) - 1 / 2) * 2 ^ k < num / den ∧ (num : ℚ) / den < (m + 1 / 2) * 2 ^ k)
    (finite : (k + 1074).toNat * twoTo 52 + m < 2047 * twoTo 52) :
    ofRatio negative num den = some (ofParts negative ((k + 1074).toNat * twoTo 52 + m)) := by
  have hk := two_zpow_pos k
  -- the fraction that is rounded to an integer
  have quotient : ((num * twoTo (-k).toNat : Nat) : ℚ) / (den * twoTo k.toNat : Nat) =
      num / den / 2 ^ k := by
    rw [two_zpow, Nat.cast_mul, Nat.cast_mul]
    have h₁ : (twoTo k.toNat : ℚ) ≠ 0 := by exact_mod_cast (twoTo_pos _).ne'
    have h₂ : (twoTo (-k).toNat : ℚ) ≠ 0 := by exact_mod_cast (twoTo_pos _).ne'
    have h₃ : (den : ℚ) ≠ 0 := by exact_mod_cast hden
    field_simp
  have digit : roundHalfEven (num * twoTo (-k).toNat) (den * twoTo k.toNat) = m := by
    apply roundHalfEven_eq (Nat.mul_pos (Nat.pos_of_ne_zero hden) (twoTo_pos _))
    · rwa [quotient, le_div_iff₀ hk]
    · rwa [quotient, div_le_iff₀ hk]
    · rwa [quotient, lt_div_iff₀ hk, div_lt_iff₀ hk]
  simp only [ofRatio, hnum, if_false, place, scaled_eq, digit, finite, if_true]

/-- Just below a power of two, the last place is one less than that of the power. -/
theorem ofRatio_of_below_power {x : Double} {num den : Nat} (negative : Bool)
    (finite : x.isFinite = true) (hnum : num ≠ 0) (hden : den ≠ 0) (hf : x.fractionField = 0)
    (he : 1 < x.exponentField) (low : x.lowEnd ≤ num / den)
    (below : (num : ℚ) / den < 2 ^ (x.power + 52)) :
    ofRatio negative num den = some (ofParts negative x.magnitude) := by
  have hh := two_zpow_pos (x.power - 1)
  have whole : x.significand = twoTo 52 := by
    simp only [significand, hf, if_neg (by omega : ¬x.exponentField = 0), zero_add]
  have hpower : x.power = (x.exponentField : ℤ) - 1075 := by
    simp only [power, if_neg (by omega : ¬x.exponentField = 0)]
  have half : (2 : ℚ) ^ x.power = 2 * 2 ^ (x.power - 1) := by
    rw [← two_zpow_succ, sub_add_cancel]
  have low' : ((2 ^ 53 : Nat) - 1 / 2 : ℚ) * 2 ^ (x.power - 1) ≤ num / den := by
    simp only [lowEnd, hf, he, and_self, if_true, whole, cast_twoTo] at low
    calc ((2 ^ 53 : Nat) - 1 / 2 : ℚ) * 2 ^ (x.power - 1)
        = (2 ^ 52 - 1 / 4) * 2 ^ x.power := by rw [half]; push_cast; ring
      _ ≤ num / den := low
  have high' : (num : ℚ) / den < (2 ^ 53 : Nat) * 2 ^ (x.power - 1) := by
    calc (num : ℚ) / den < 2 ^ 52 * 2 ^ x.power := by rwa [← two_zpow_add]
      _ = (2 ^ 53 : Nat) * 2 ^ (x.power - 1) := by rw [half]; push_cast; ring
  have place : lastPlace num den = x.power - 1 := by
    refine lastPlace_eq hnum hden (.inl ?_) ?_ (by omega)
    · rw [show (2 : ℚ) ^ (x.power - 1 + 52) = 2 ^ 52 * 2 ^ (x.power - 1) from two_zpow_add _ 52]
      push_cast at low'
      linarith
    · rwa [show x.power - 1 + 53 = x.power + 52 by ring]
  have sum : (x.power - 1 + 1074).toNat * twoTo 52 + 2 ^ 53 = x.magnitude := by
    rw [magnitude_eq_fields, hf, twoTo_52]
    omega
  rw [ofRatio_of_place negative hnum hden place low' (by linarith)
    (fun h => absurd h (by decide)) (by rw [sum]; exact magnitude_lt finite), sum]

/-- Elsewhere around a double, the last place is its own. -/
theorem ofRatio_of_near {x : Double} {num den : Nat} (negative : Bool)
    (finite : x.isFinite = true) (hnum : num ≠ 0) (hden : den ≠ 0) (near : x.Near (num / den))
    (above : x.fractionField = 0 → 1 < x.exponentField →
      (2 : ℚ) ^ (x.power + 52) ≤ num / den) :
    ofRatio negative num den = some (ofParts negative x.magnitude) := by
  have hq := two_zpow_pos x.power
  have least : ((x.significand : ℚ) - 1 / 2) * 2 ^ x.power ≤ x.lowEnd := by
    unfold lowEnd
    split <;> nlinarith
  have normal : (2 : ℚ) ^ (x.power + 52) ≤ num / den ∨ x.power = -1074 := by
    rcases Nat.lt_or_ge 1 x.exponentField with he | he
    · left
      by_cases hf : x.fractionField = 0
      · exact above hf he
      · have large : twoTo 52 + 1 ≤ x.significand := by
          simp only [significand, if_neg (by omega : ¬x.exponentField = 0)]
          omega
        have large : ((twoTo 52 + 1 : Nat) : ℚ) ≤ x.significand := by exact_mod_cast large
        rw [Nat.cast_add, cast_twoTo, Nat.cast_one] at large
        have low := least.trans near.low
        rw [show (2 : ℚ) ^ (x.power + 52) = 2 ^ 52 * 2 ^ x.power from two_zpow_add _ 52]
        nlinarith
    · right
      unfold power
      split <;> omega
  have place : lastPlace num den = x.power := by
    refine lastPlace_eq hnum hden normal ?_ x.power_ge
    have high := near.high
    have most := x.cast_significand_le
    unfold highEnd at high
    rw [show (2 : ℚ) ^ (x.power + 53) = 2 ^ 53 * 2 ^ x.power from two_zpow_add _ 53]
    nlinarith
  have sum := x.magnitude_eq_place.symm
  rw [ofRatio_of_place negative hnum hden place (least.trans near.low) near.high
    (fun h => (near.odd h).imp_left least.trans_lt) (by rw [sum]; exact magnitude_lt finite), sum]

/-- Every fraction around a double is rounded to it. -/
theorem ofRatio_eq {x : Double} {num den : Nat} (negative : Bool) (finite : x.isFinite = true)
    (hnum : num ≠ 0) (hden : den ≠ 0) (near : x.Near (num / den)) :
    ofRatio negative num den = some (ofParts negative x.magnitude) := by
  by_cases edge : (x.fractionField = 0 ∧ 1 < x.exponentField) ∧
      (num : ℚ) / den < 2 ^ (x.power + 52)
  · obtain ⟨⟨hf, he⟩, below⟩ := edge
    exact ofRatio_of_below_power negative finite hnum hden hf he near.low below
  · exact ofRatio_of_near negative finite hnum hden near
      fun hf he => not_lt.1 fun below => edge ⟨⟨hf, he⟩, below⟩

/-! ## §6. Reading a decimal. -/

theorem highEnd_lt {x : Double} (finite : x.isFinite = true) : x.highEnd < 2 ^ (1024 : ℤ) := by
  have hq := two_zpow_pos x.power
  have most := x.cast_significand_le
  have he := exponentField_lt finite
  have top : x.power + 53 ≤ 1024 := by
    unfold power
    split <;> omega
  calc x.highEnd < 2 ^ 53 * 2 ^ x.power := by
        unfold highEnd
        nlinarith
    _ = 2 ^ (x.power + 53) := (two_zpow_add _ 53).symm
    _ ≤ 2 ^ (1024 : ℤ) := zpow_le_zpow_right₀ (by norm_num) top

theorem lowEnd_ge {x : Double} (nonzero : x.isZero = false) :
    (2 : ℚ) ^ (-1075 : ℤ) ≤ x.lowEnd := by
  have hq := two_zpow_pos x.power
  have hm : (1 : ℚ) ≤ x.significand := by exact_mod_cast significand_pos nonzero
  have least : (2 : ℚ) ^ (-1074 : ℤ) ≤ 2 ^ x.power :=
    zpow_le_zpow_right₀ (by norm_num) x.power_ge
  calc (2 : ℚ) ^ (-1075 : ℤ) = 1 / 2 * 2 ^ (-1074 : ℤ) := by
        rw [show (-1074 : ℤ) = -1075 + 1 by norm_num, two_zpow_succ]
        ring
    _ ≤ 1 / 2 * 2 ^ x.power := by linarith
    _ ≤ x.lowEnd := by
        unfold lowEnd
        split <;> nlinarith

/-- The fractions around a double other than zero are far within the powers of ten
that settle the answer by themselves. -/
theorem Near.bounds {x : Double} {v : ℚ} (near : x.Near v) (finite : x.isFinite = true)
    (nonzero : x.isZero = false) : (10 : ℚ) ^ (-400 : ℤ) < v ∧ v < 10 ^ (400 : ℤ) := by
  constructor
  · calc (10 : ℚ) ^ (-400 : ℤ) < 2 ^ (-1075 : ℤ) := by
          rw [zpow_neg, zpow_neg]
          exact inv_strictAnti₀ (by positivity)
            (two_zpow_lt_ten_zpow (k := 1075) (n := 400) (by decide))
      _ ≤ x.lowEnd := lowEnd_ge nonzero
      _ ≤ v := near.low
  · calc v ≤ x.highEnd := near.high
      _ < 2 ^ (1024 : ℤ) := highEnd_lt finite
      _ < 10 ^ (400 : ℤ) := two_zpow_lt_ten_zpow (k := 1024) (n := 400) (by decide)

/-- Every decimal around a double is read as the double. -/
theorem ofDecimal_eq {x : Double} {digits : Nat} {exponent : ℤ} (negative : Bool)
    (finite : x.isFinite = true) (nonzero : x.isZero = false)
    (near : x.Near (digits * 10 ^ exponent)) :
    ofDecimal negative digits exponent = some (ofParts negative x.magnitude) := by
  obtain ⟨low, high⟩ := near.bounds finite nonzero
  have he : (0 : ℚ) < 10 ^ exponent := by positivity
  have pos : digits ≠ 0 := by
    rintro rfl
    have : (0 : ℚ) < 10 ^ (-400 : ℤ) := by positivity
    rw [Nat.cast_zero, zero_mul] at low
    linarith
  have least : (1 : ℚ) ≤ digits := by exact_mod_cast Nat.pos_of_ne_zero pos
  -- the decimal is near a finite double that is not zero, so neither shortcut is taken
  have notHuge : ¬400 < exponent := by
    intro h
    refine lt_asymm high ?_
    calc (10 : ℚ) ^ (400 : ℤ) < 10 ^ exponent := zpow_lt_zpow_right₀ (by norm_num) h
      _ ≤ digits * 10 ^ exponent := le_mul_of_one_le_left he.le least
  have notTiny : ¬exponent < -(400 + digits.log2 : ℤ) := by
    intro h
    have below : (digits : ℚ) < 2 ^ (digits.log2 + 1) := by exact_mod_cast Nat.lt_log2_self
    have powers : (2 : ℚ) ^ (digits.log2 + 1) ≤ 10 ^ (digits.log2 + 1) :=
      pow_le_pow_left₀ (by norm_num) (by norm_num) _
    refine absurd low (not_lt.2 ?_)
    calc digits * (10 : ℚ) ^ exponent
        ≤ 10 ^ (digits.log2 + 1) * 10 ^ exponent :=
          mul_le_mul_of_nonneg_right (below.le.trans powers) he.le
      _ = 10 ^ ((digits.log2 + 1 : Nat) + exponent) := by
          rw [zpow_add₀ (by norm_num), zpow_natCast]
      _ ≤ 10 ^ (-400 : ℤ) := zpow_le_zpow_right₀ (by norm_num) (by push_cast; omega)
  unfold ofDecimal
  rw [if_neg pos, if_neg notHuge, if_neg notTiny]
  have tens : ∀ n, tenTo n ≠ 0 := fun n => (tenTo_pos n).ne'
  rw [ten_zpow] at near
  -- the power of ten goes to the numerator, or to the denominator
  split
  · have h : (-exponent).toNat = 0 := by omega
    apply ofRatio_eq negative finite (Nat.mul_ne_zero pos (tens _)) (by decide)
    rw [h, show tenTo 0 = 1 from rfl, Nat.cast_one, div_one] at near
    rwa [Nat.cast_mul, Nat.cast_one, div_one]
  · have h : exponent.toNat = 0 := by omega
    apply ofRatio_eq negative finite pos (tens _)
    rwa [h, show tenTo 0 = 1 from rfl, Nat.cast_one, mul_one_div] at near

/-- A decimal of no digits is a zero. -/
theorem ofDecimal_zero (negative : Bool) (exponent : ℤ) :
    ofDecimal negative 0 exponent = some (ofParts negative 0) := by
  simp [ofDecimal]

/-! ## §7. What is rounded is finite. -/

theorem magnitude_ofParts {negative : Bool} {magnitude : Nat} (small : magnitude < twoTo 63) :
    (ofParts negative magnitude).magnitude = magnitude := by
  have half : twoTo 63 = 9223372036854775808 := by decide
  rw [half] at small
  unfold Double.magnitude ofParts
  rw [half]
  cases negative
  · rw [if_neg Bool.false_ne_true,
      UInt64.toNat_ofNat_of_lt' (show magnitude < 18446744073709551616 by omega)]
    omega
  · rw [if_pos rfl, UInt64.toNat_ofNat_of_lt'
      (show magnitude + 9223372036854775808 < 18446744073709551616 by omega)]
    omega

theorem isFinite_ofParts {negative : Bool} {magnitude : Nat}
    (small : magnitude < 2047 * twoTo 52) : (ofParts negative magnitude).isFinite = true := by
  have half : twoTo 63 = 9223372036854775808 := by decide
  rw [twoTo_52] at small
  unfold isFinite exponentField
  rw [magnitude_ofParts (by omega), twoTo_52]
  simp only [decide_eq_true_eq]
  omega

/-- A fraction is rounded to a finite double, if to any. -/
theorem isFinite_of_ofRatio {negative : Bool} {num den : Nat} {x : Double}
    (h : ofRatio negative num den = some x) : x.isFinite = true := by
  unfold ofRatio at h
  split at h
  · cases h
    exact isFinite_ofParts (by decide)
  · simp only [Option.ite_none_right_eq_some] at h
    obtain ⟨small, same⟩ := h
    rw [← Option.some.inj same]
    exact isFinite_ofParts small

/-- Every integer is read as a finite double. -/
theorem isFinite_ofInt (i : Int) : (ofInt i).isFinite = true := by
  unfold ofInt
  cases rounded : ofRatio (i < 0) i.natAbs 1 with
  | none => exact isFinite_ofParts (by decide)
  | some x => exact isFinite_of_ofRatio rounded

/-- A decimal is rounded to a finite double, if to any. -/
theorem isFinite_of_ofDecimal {negative : Bool} {digits : Nat} {exponent : ℤ} {x : Double}
    (h : ofDecimal negative digits exponent = some x) : x.isFinite = true := by
  have zero : (ofParts negative 0).isFinite = true := isFinite_ofParts (by decide)
  unfold ofDecimal at h
  split at h
  · exact Option.some.inj h ▸ zero
  split at h
  · cases h
  split at h
  · exact Option.some.inj h ▸ zero
  split at h
  · exact isFinite_of_ofRatio h
  · exact isFinite_of_ofRatio h

end Double

end LiteratureReview.Decimal
