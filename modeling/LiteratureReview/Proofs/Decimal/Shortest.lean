/-
  LiteratureReview.Proofs.Decimal.Shortest
  ────────────────────────────────────────
  The shortest digits of a double stand for a fraction around it.

  The interval that digits are tried against is the one of `Double.Near`
  (`holds_iff`), and seventeen places are always enough to hit it
  (`nearest_hit`): the decimals of so many places are denser than the
  doubles.  Hence `shortest_near`, and with the rounding of fractions
  `ofDecimal_of_value`: any decimal of the same value reads as the double.
-/
import LiteratureReview.Proofs.Decimal.Rounding

namespace LiteratureReview.Decimal

/-- The fraction that digits and a power of ten stand for. -/
def Digits.value (d : Digits) : ℚ := d.digits * 10 ^ d.exponent

namespace Double

/-- The value of a finite double, sign apart. -/
def value (x : Double) : ℚ := x.significand * 2 ^ x.power

end Double

namespace Rounding

open Double

variable {x : Double}

/-! ## §1. The interval. -/

theorem unit_pos (x : Double) : 0 < (ofDouble x).unit := twoTo_pos _

/-- A quarter of the last place, over the common denominator. -/
theorem cast_quarter (x : Double) :
    (twoTo (x.power - 2).toNat : ℚ) = 2 ^ x.power / 4 * (ofDouble x).unit := by
  have hpos : ((ofDouble x).unit : ℚ) ≠ 0 := by exact_mod_cast (unit_pos x).ne'
  have quarter : (2 : ℚ) ^ x.power / 4 = 2 ^ (x.power - 2) := by
    rw [zpow_sub₀ (by norm_num)]
    norm_num
  rw [quarter, two_zpow]
  exact (div_mul_cancel₀ _ hpos).symm

theorem cast_low (nonzero : x.isZero = false) :
    ((ofDouble x).low : ℚ) = x.lowEnd * (ofDouble x).unit := by
  have hm := significand_pos nonzero
  have shape : (ofDouble x).low =
      (4 * x.significand - if x.fractionField = 0 ∧ 1 < x.exponentField then 1 else 2)
        * twoTo (x.power - 2).toNat := by
    simp [ofDouble]
  rw [shape, Nat.cast_mul, cast_quarter, Nat.cast_sub (by split <;> omega)]
  unfold lowEnd
  split <;> push_cast <;> ring

theorem cast_mid (x : Double) : ((ofDouble x).mid : ℚ) = x.value * (ofDouble x).unit := by
  have shape : (ofDouble x).mid = 4 * x.significand * twoTo (x.power - 2).toNat := rfl
  rw [shape, Nat.cast_mul, cast_quarter]
  unfold value
  push_cast
  ring

theorem cast_high (x : Double) : ((ofDouble x).high : ℚ) = x.highEnd * (ofDouble x).unit := by
  have shape : (ofDouble x).high = (4 * x.significand + 2) * twoTo (x.power - 2).toNat := rfl
  rw [shape, Nat.cast_mul, cast_quarter]
  unfold highEnd
  push_cast
  ring

/-- An end of the interval against a decimal, without denominators. -/
theorem scaled_le_scaled {v : ℚ} {a u : Nat} (hu : 0 < u) (ha : (a : ℚ) = v * u) (c : Nat) (t : ℤ) :
    (a * tenTo (-t).toNat ≤ c * tenTo t.toNat * u ↔ v ≤ c * 10 ^ t) ∧
      (c * tenTo t.toNat * u ≤ a * tenTo (-t).toNat ↔ (c : ℚ) * 10 ^ t ≤ v) := by
  have hs : (0 : ℚ) < tenTo (-t).toNat := by exact_mod_cast tenTo_pos _
  have hu' : (0 : ℚ) < u := by exact_mod_cast hu
  have left : ((a * tenTo (-t).toNat : Nat) : ℚ) = v * (u * tenTo (-t).toNat) := by
    rw [Nat.cast_mul, ha]
    ring
  have right : ((c * tenTo t.toNat * u : Nat) : ℚ) =
      c * 10 ^ t * (u * tenTo (-t).toNat) := by
    rw [ten_zpow, Nat.cast_mul, Nat.cast_mul]
    field_simp
  have hk : (0 : ℚ) < u * tenTo (-t).toNat := mul_pos hu' hs
  constructor
  · rw [← Nat.cast_le (α := ℚ), left, right]
    exact mul_le_mul_iff_left₀ hk
  · rw [← Nat.cast_le (α := ℚ), left, right]
    exact mul_le_mul_iff_left₀ hk

/-- The test of digits is whether their value is around the double. -/
theorem holds_iff (nonzero : x.isZero = false) (c : Nat) (t : ℤ) :
    (ofDouble x).holds c t = true ↔ x.Near (c * 10 ^ t) := by
  obtain ⟨low_le, le_low⟩ := scaled_le_scaled (unit_pos x) (cast_low nonzero) c t
  obtain ⟨high_le, le_high⟩ := scaled_le_scaled (unit_pos x) (cast_high x) c t
  have closed : (ofDouble x).closed = (x.significand % 2 == 0) := rfl
  unfold holds
  rw [closed]
  rcases Nat.mod_two_eq_zero_or_one x.significand with even | odd
  · simp only [even, beq_self_eq_true, if_true, Bool.and_eq_true, decide_eq_true_eq, low_le,
      le_high]
    exact ⟨fun ⟨h₁, h₂⟩ => ⟨h₁, h₂, fun h => absurd h (by omega)⟩, fun h => ⟨h.low, h.high⟩⟩
  · have one : (1 == 0) = false := rfl
    simp only [odd, one, Bool.false_eq_true, if_false, Bool.and_eq_true, decide_eq_true_eq]
    rw [← not_le, ← not_le, le_low, high_le, not_le, not_le]
    exact ⟨fun ⟨h₁, h₂⟩ => ⟨h₁.le, h₂.le, fun _ => ⟨h₁, h₂⟩⟩, fun h => h.odd odd⟩

/-! ## §2. The two decimals next to a double. -/

/-- The decimal below, one unit of its last place apart from the one above. -/
theorem floor_bounds (x : Double) (t : ℤ) :
    let c := (ofDouble x).mid * tenTo (-t).toNat / ((ofDouble x).unit * tenTo t.toNat)
    (c : ℚ) * 10 ^ t ≤ x.value ∧ x.value < (c + 1) * 10 ^ t := by
  intro c
  have hden : 0 < (ofDouble x).unit * tenTo t.toNat := Nat.mul_pos (unit_pos x) (tenTo_pos _)
  have below : c * tenTo t.toNat * (ofDouble x).unit ≤ (ofDouble x).mid * tenTo (-t).toNat := by
    rw [mul_assoc, mul_comm (tenTo t.toNat)]
    exact Nat.div_mul_le_self _ _
  have above : ¬(c + 1) * tenTo t.toNat * (ofDouble x).unit ≤
      (ofDouble x).mid * tenTo (-t).toNat := by
    rw [mul_assoc, mul_comm (tenTo t.toNat)]
    exact not_le.2 (Nat.lt_mul_of_div_lt (Nat.lt_succ_self _) hden)
  rw [(scaled_le_scaled (unit_pos x) (cast_mid x) c t).2] at below
  rw [(scaled_le_scaled (unit_pos x) (cast_mid x) (c + 1) t).2] at above
  push_cast at above
  exact ⟨below, not_le.1 above⟩

/-- With a last place sixteen below that of the leading digit, one of the two
decimals is around the double. -/
theorem near_of_dense {c : Nat} {t : ℤ}
    (below : (c : ℚ) * 10 ^ t ≤ x.value) (above : x.value < (c + 1) * 10 ^ t)
    (dense : 10 ^ 16 * (10 : ℚ) ^ t ≤ x.value) :
    x.Near (c * 10 ^ t) ∨ x.Near ((c + 1 : Nat) * 10 ^ t) := by
  have hP := two_zpow_pos x.power
  have hm : (x.significand : ℚ) ≤ 2 ^ 53 := by exact_mod_cast x.significand_lt.le
  push_cast
  unfold value at below above dense
  -- the half widths of the interval, and how the distance of the decimals compares
  obtain ⟨b, low_eq, b_pos, b_half, gap⟩ : ∃ b : ℚ, x.lowEnd = (x.significand - b) * 2 ^ x.power ∧
      0 < b ∧ b ≤ 1 / 2 ∧ (x.significand : ℚ) < 10 ^ 16 * (b + 1 / 2) := by
    by_cases edge : x.fractionField = 0 ∧ 1 < x.exponentField
    · have whole : x.significand = twoTo 52 := by
        simp only [significand, edge.1, if_neg (by omega : ¬x.exponentField = 0), zero_add]
      refine ⟨1 / 4, by rw [lowEnd, if_pos edge], by norm_num, by norm_num, ?_⟩
      rw [whole, cast_twoTo]
      norm_num
    · refine ⟨1 / 2, by rw [lowEnd, if_neg edge], by norm_num, by norm_num, ?_⟩
      linarith
  have step : (10 : ℚ) ^ t < (b + 1 / 2) * 2 ^ x.power := by nlinarith
  have highEnd_eq : x.highEnd = (x.significand + 1 / 2) * 2 ^ x.power := rfl
  by_cases near : (x.significand - b) * 2 ^ x.power < c * 10 ^ t
  · left
    have inside : (c : ℚ) * 10 ^ t < x.highEnd := by rw [highEnd_eq]; nlinarith
    rw [← low_eq] at near
    exact ⟨near.le, inside.le, fun _ => ⟨near, inside⟩⟩
  · right
    have low : x.lowEnd < (c + 1) * 10 ^ t := by rw [low_eq]; nlinarith
    have high : ((c : ℚ) + 1) * 10 ^ t < x.highEnd := by rw [highEnd_eq]; nlinarith
    exact ⟨low.le, high.le, fun _ => ⟨low, high⟩⟩

/-- What `nearest` gives is around the double. -/
theorem near_of_nearest {t : ℤ} {d : Digits} (nonzero : x.isZero = false)
    (h : (ofDouble x).nearest t = some d) : x.Near d.value := by
  unfold nearest at h
  simp only at h
  split at h
  case h_1 low high =>
    cases h
    rw [holds_iff nonzero] at low high
    simp only [Digits.value]
    split
    · exact high
    · exact low
  case h_2 low _ =>
    cases h
    exact (holds_iff nonzero _ _).1 low
  case h_3 _ high =>
    cases h
    exact (holds_iff nonzero _ _).1 high
  case h_4 => cases h

/-- It gives something sixteen places below the leading digit. -/
theorem nearest_hit {t : ℤ} (nonzero : x.isZero = false)
    (dense : 10 ^ 16 * (10 : ℚ) ^ t ≤ x.value) : ((ofDouble x).nearest t).isSome = true := by
  obtain ⟨below, above⟩ := floor_bounds x t
  have hit := near_of_dense below above dense
  rw [← holds_iff nonzero, ← holds_iff nonzero] at hit
  unfold nearest
  simp only
  split
  case h_1 => rfl
  case h_2 => rfl
  case h_3 => rfl
  case h_4 low high => simp [low, high] at hit

/-! ## §3. The leading digit. -/

theorem reaches_iff {num den : Nat} (hden : 0 < den) (k : ℤ) :
    leadingPower.reaches num den k = true ↔ (10 : ℚ) ^ k ≤ num / den := by
  have hden' : (0 : ℚ) < den := by exact_mod_cast hden
  have h := (scaled_le_scaled hden (v := (num : ℚ) / den) (a := num)
    (div_mul_cancel₀ _ hden'.ne').symm 1 k).2
  rw [Nat.cast_one, one_mul, one_mul] at h
  rw [← h, leadingPower.reaches, decide_eq_true_eq, mul_comm den]

/-- Climbing never leaves the powers that are reached. -/
theorem reaches_climb {num den : Nat} (n : Nat) (k : ℤ)
    (h : leadingPower.reaches num den k = true) :
    leadingPower.reaches num den (leadingPower.climb num den n k) = true := by
  induction n generalizing k with
  | zero => exact h
  | succ n ih =>
    unfold leadingPower.climb
    split
    next next => exact ih _ next
    next => exact h

/-- The estimate of a decimal logarithm is below the binary one, for the
exponents that doubles have. -/
theorem ten_zpow_guess_le {s : ℤ} (low : -1100 ≤ s) (high : s ≤ 1100) :
    (10 : ℚ) ^ (s * 30103 / 100000 - 1) ≤ 2 ^ s := by
  have up : ∀ n < 1101, 10 ^ (n * 30103 / 100000) ≤ 2 ^ n * 10 := by decide +kernel
  have down : ∀ n < 1101, 2 ^ n ≤ 10 ^ ((n * 30103 + 99999) / 100000 + 1) := by decide +kernel
  obtain ⟨n, rfl | rfl⟩ := s.eq_nat_or_neg
  · have h := up n (by omega)
    have h' : (10 : ℚ) ^ (n * 30103 / 100000) ≤ 2 ^ n * 10 := by exact_mod_cast h
    rw [zpow_sub₀ (by norm_num), zpow_one, div_le_iff₀ (by norm_num)]
    exact_mod_cast h'
  · have h := down n (by omega)
    have h' : (2 : ℚ) ^ n ≤ 10 ^ ((n * 30103 + 99999) / 100000 + 1) := by exact_mod_cast h
    have power : -(n : ℤ) * 30103 / 100000 - 1 =
        -(((n * 30103 + 99999) / 100000 + 1 : Nat) : ℤ) := by
      push_cast
      omega
    rw [power, zpow_neg, zpow_neg, zpow_natCast, zpow_natCast]
    exact inv_anti₀ (by positivity) h'

/-- The leading power of ten is not above the double. -/
theorem ten_zpow_leadingPower_le (finite : x.isFinite = true) (nonzero : x.isZero = false) :
    (10 : ℚ) ^ leadingPower (ofDouble x).mid (ofDouble x).unit ≤ x.value := by
  have hunit := unit_pos x
  have hunit' : ((ofDouble x).unit : ℚ) ≠ 0 := by exact_mod_cast hunit.ne'
  have quotient : ((ofDouble x).mid : ℚ) / (ofDouble x).unit = x.value := by
    rw [cast_mid, mul_div_cancel_right₀ _ hunit']
  have hP := two_zpow_pos x.power
  have value_low : x.lowEnd ≤ x.value := by
    unfold lowEnd value
    split <;> nlinarith
  have value_high : x.value < x.highEnd := by
    unfold highEnd value
    nlinarith
  have hmid : (ofDouble x).mid ≠ 0 := by
    intro h
    have := two_zpow_pos (-1075)
    have := (lowEnd_ge nonzero).trans value_low
    rw [← quotient, h, Nat.cast_zero, zero_div] at this
    linarith
  obtain ⟨above, below⟩ := log2_bounds hmid hunit.ne'
  rw [quotient] at above below
  have high := two_zpow_lt_iff.1 (above.trans (value_high.trans (highEnd_lt finite)))
  have low := two_zpow_lt_iff.1 (((lowEnd_ge nonzero).trans value_low).trans_lt below)
  rw [← quotient, ← reaches_iff hunit]
  -- the power guessed from the logarithms is not above it, and climbing keeps that so
  apply reaches_climb
  rw [reaches_iff hunit, quotient]
  exact (ten_zpow_guess_le (by omega) (by omega)).trans above.le

end Rounding

/-! ## §4. The search. -/

open Double Rounding

theorem near_of_search {x : Double} {lead : ℤ} {d : Digits} (nonzero : x.isZero = false)
    (n places : Nat) (h : shortest.search (ofDouble x) lead n places = some d) :
    x.Near d.value := by
  induction n generalizing places with
  | zero => cases h
  | succ n ih =>
    unfold shortest.search at h
    cases found : (ofDouble x).nearest (lead - places) with
    | some e =>
      rw [found] at h
      cases h
      exact near_of_nearest nonzero found
    | none =>
      rw [found] at h
      exact ih _ h

theorem search_hit {r : Rounding} {lead : ℤ} (n places last : Nat) (first : places ≤ last)
    (inside : last < places + n) (hit : (r.nearest (lead - last)).isSome = true) :
    (shortest.search r lead n places).isSome = true := by
  induction n generalizing places with
  | zero => omega
  | succ n ih =>
    unfold shortest.search
    rcases Nat.lt_or_eq_of_le first with before | rfl
    · rw [Option.isSome_or, ih (places + 1) before (by omega), Bool.or_true]
    · rw [Option.isSome_or, hit, Bool.true_or]

/-- The shortest digits of a double stand for a fraction around it. -/
theorem shortest_near {x : Double} (finite : x.isFinite = true) (nonzero : x.isZero = false) :
    x.Near (shortest x).value := by
  have dense : 10 ^ 16 * (10 : ℚ) ^ (leadingPower (ofDouble x).mid (ofDouble x).unit - (16 : Nat)) ≤
      x.value := by
    rw [zpow_sub₀ (by norm_num), zpow_natCast, mul_div_cancel₀ _ (by norm_num)]
    exact ten_zpow_leadingPower_le finite nonzero
  have found := search_hit 17 0 16 (by omega) (by omega) (nearest_hit nonzero dense)
  obtain ⟨d, hd⟩ := Option.isSome_iff_exists.1 found
  have : shortest x = d := by
    simp only [shortest, hd, Option.getD_some]
  rw [this]
  exact near_of_search nonzero _ _ hd

/-- A decimal of the value of the shortest digits reads as the double. -/
theorem ofDecimal_of_value {x : Double} {digits : Nat} {exponent : ℤ}
    (finite : x.isFinite = true) (nonzero : x.isZero = false)
    (same : (digits : ℚ) * 10 ^ exponent = (shortest x).value) :
    ofDecimal x.isNegative digits exponent = some x := by
  have near := shortest_near finite nonzero
  rw [← same] at near
  rw [ofDecimal_eq _ finite nonzero near, ofParts_magnitude]

/-- A zero is read from no digits and its sign. -/
theorem ofDecimal_of_zero {x : Double} (zero : x.isZero = true) (exponent : ℤ) :
    ofDecimal x.isNegative 0 exponent = some x := by
  have hm : x.magnitude = 0 := by simpa [isZero] using zero
  rw [ofDecimal_zero, ← hm, ofParts_magnitude]

end LiteratureReview.Decimal
