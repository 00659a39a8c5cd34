/-
  LiteratureReview.Proofs.Json.Numerals
  ─────────────────────────────────────
  Numbers are read back from the way they are written.

  A numeral has digits before the point, digits behind it and a power of
  ten, of which the last two may be missing (`Numeral`).  The scanner reads
  it as the double of its digits and power (`takes_numeral`).  What
  `Double.render` writes is a numeral whose value is that of the shortest
  digits (`exists_numeral`), so it is read as the double it was written for.

    • `takes_number` — the round trip of proper numbers.
-/
import LiteratureReview.Proofs.Decimal.Shortest
import LiteratureReview.Proofs.Json.Proper
import LiteratureReview.Proofs.Json.Scanning

namespace LiteratureReview

open Decimal

/-! ## §1. Runs of digits. -/

theorem isDigit_of_mem_toDigits {n : Nat} {c : Char} (h : c ∈ Nat.toDigits 10 n) :
    c.isDigit = true :=
  Nat.isDigit_of_mem_toDigits (by decide) (by decide) h

/-- A positive number is written without zeros in front. -/
theorem toDigits_head_ne_zero {n : Nat} (pos : 0 < n) :
    ∃ c cs, Nat.toDigits 10 n = c :: cs ∧ c ≠ '0' := by
  induction n using Nat.strongRecOn with
  | ind n ih =>
    by_cases small : n < 10
    · refine ⟨n.digitChar, [], Nat.toDigits_of_lt_base small, ?_⟩
      have : ∀ m < 10, 0 < m → m.digitChar ≠ '0' := by decide
      exact this n small pos
    · obtain ⟨c, cs, front, nonzero⟩ := ih (n / 10) (by omega) (by omega)
      refine ⟨c, cs ++ Nat.toDigits 10 (n % 10), ?_, nonzero⟩
      rw [Nat.toDigits_of_base_le (by decide) (by omega), front,
        Nat.toDigits_of_lt_base (Nat.mod_lt _ (by decide))]
      rfl

/-- Zeros at the end are dropped, and nothing else. -/
theorem dropEndZeros_append (ds : List Char) :
    ∃ k, ds = dropEndZeros ds ++ List.replicate k '0' := by
  have front : ∀ l : List Char, ∃ k, l = List.replicate k '0' ++ l.dropWhile (· == '0') := by
    intro l
    induction l with
    | nil => exact ⟨0, rfl⟩
    | cons c cs ih =>
      by_cases zero : c = '0'
      · subst zero
        obtain ⟨k, rest⟩ := ih
        refine ⟨k + 1, ?_⟩
        rw [List.dropWhile_cons_of_pos (by rfl), List.replicate_succ, List.cons_append, ← rest]
      · exact ⟨0, by rw [List.dropWhile_cons_of_neg (by simpa using zero)]; rfl⟩
  obtain ⟨k, reversed⟩ := front ds.reverse
  refine ⟨k, ?_⟩
  have := congrArg List.reverse reversed
  rwa [List.reverse_reverse, List.reverse_append, List.reverse_replicate] at this

/-- What is left of the digits of a positive number without the zeros at their end. -/
theorem dropEndZeros_toDigits {n : Nat} (pos : 0 < n) :
    (∀ d ∈ dropEndZeros (Nat.toDigits 10 n), d.isDigit = true) ∧
      dropEndZeros (Nat.toDigits 10 n) ≠ [] ∧
        ∀ ds, dropEndZeros (Nat.toDigits 10 n) ≠ '0' :: ds := by
  obtain ⟨k, written⟩ := dropEndZeros_append (Nat.toDigits 10 n)
  obtain ⟨c, cs, head, nonzero⟩ := toDigits_head_ne_zero pos
  refine ⟨fun d mem => ?_, fun none => ?_, fun ds zero => ?_⟩
  · refine isDigit_of_mem_toDigits (n := n) ?_
    rw [written]
    exact List.mem_append_left _ mem
  · -- zeros alone cannot begin with another digit
    rw [none, List.nil_append, head] at written
    exact nonzero (List.eq_of_mem_replicate (written ▸ List.mem_cons_self))
  · rw [zero, head, List.cons_append] at written
    exact nonzero (List.cons.inj written).1

/-- The number of its digits bounds a positive number from both sides. -/
theorem toDigits_bounds {n : Nat} (pos : 0 < n) :
    (10 : ℚ) ^ (((Nat.toDigits 10 n).length : ℤ) - 1) ≤ n ∧
      (n : ℚ) < 10 ^ ((Nat.toDigits 10 n).length : ℤ) := by
  have length_pos : 0 < (Nat.toDigits 10 n).length := Nat.length_toDigits_pos
  generalize count : (Nat.toDigits 10 n).length = k at length_pos ⊢
  constructor
  · rcases Nat.eq_or_lt_of_le length_pos with rfl | several
    · simpa using (by exact_mod_cast pos : (1 : ℚ) ≤ n)
    · have longer : ¬(Nat.toDigits 10 n).length ≤ k - 1 := by omega
      rw [Nat.length_toDigits_le_iff (by decide) (by omega)] at longer
      have least : 10 ^ (k - 1) ≤ n := Nat.not_lt.1 longer
      have power : (k : ℤ) - 1 = ((k - 1 : Nat) : ℤ) := by omega
      rw [power, zpow_natCast]
      exact_mod_cast least
  · have below : n < 10 ^ k := by
      rw [← Nat.length_toDigits_le_iff (by decide) length_pos, count]
    exact_mod_cast below

theorem ofDigitChars_mono (ds : List Char) (n : Nat) : n ≤ Nat.ofDigitChars 10 ds n := by
  rw [Nat.ofDigitChars_eq_ofDigitChars_zero]
  have : n ≤ 10 ^ ds.length * n := Nat.le_mul_of_pos_left n (Nat.pow_pos (by decide))
  omega

/-! ## §2. Numerals. -/

/-- The parts of a number that has a fraction or a power of ten. -/
structure Numeral where
  whole : List Char
  fraction : List Char
  power : Option Int

namespace Numeral

/-- How the power of ten is written. -/
def powerText : Option Int → List Char
  | none => []
  | some e => 'e' :: (if e < 0 then '-' else '+') :: Nat.toDigits 10 e.natAbs

/-- How the fraction is written. -/
def fractionText : List Char → List Char
  | [] => []
  | ds => '.' :: ds

/-- How the number is written. -/
def text (n : Numeral) : List Char :=
  n.whole ++ (fractionText n.fraction ++ powerText n.power)

/-- The digits as a number. -/
def digits (n : Numeral) : Nat := Nat.ofDigitChars 10 (n.whole ++ n.fraction) 0

/-- The power of ten of the last digit. -/
def exponent (n : Numeral) : Int := n.power.getD 0 - n.fraction.length

/-- A numeral as it may stand in a text. -/
structure WellFormed (n : Numeral) : Prop where
  whole_digits : ∀ d ∈ n.whole, d.isDigit = true
  fraction_digits : ∀ d ∈ n.fraction, d.isDigit = true
  whole_ne : n.whole ≠ []
  /-- No zeros in front. -/
  whole_zero : ∀ ds, n.whole = '0' :: ds → ds = []
  /-- An integer is written differently. -/
  inexact : n.fraction ≠ [] ∨ n.power.isSome = true
  power_small : ∀ e ∈ n.power, e.natAbs ≤ Scan.exponentLimit

end Numeral

namespace Scan

variable {text rest : List Char} {negative : Bool}

/-! ## §3. Powers of ten. -/

theorem takes_exponentDigits {ds : List Char} {fuel value : Nat} {refuseHuge : Bool}
    (all : ∀ d ∈ ds, d.isDigit = true) (stop : ∀ x ∈ rest.head?, x.isDigit = false)
    (enough : ds.length ≤ fuel) (small : Nat.ofDigitChars 10 ds value ≤ exponentLimit) :
    (exponentDigits refuseHuge fuel value).Takes ds (Nat.ofDigitChars 10 ds value) rest := by
  induction ds generalizing fuel value with
  | nil =>
    cases fuel with
    | zero => exact takes_pure value
    | succ fuel =>
      refine Takes.look takes_peek ?_
      cases rest with
      | nil => exact takes_pure value
      | cons x more =>
        have : x.isDigit = false := stop x (by simp)
        simp only [List.nil_append, List.head?_cons, this]
        exact takes_pure value
  | cons d ds ih =>
    obtain ⟨fuel, rfl⟩ : ∃ n, fuel = n + 1 := ⟨fuel - 1, by simp at enough; omega⟩
    have next : Nat.ofDigitChars 10 (d :: ds) value =
        Nat.ofDigitChars 10 ds (value * 10 + (d.toNat - 48)) := by
      rw [Nat.ofDigitChars_cons, Nat.mul_comm 10]
      rfl
    rw [next] at small ⊢
    have below : ¬exponentLimit < value * 10 + (d.toNat - 48) :=
      Nat.not_lt.2 ((ofDigitChars_mono ds _).trans small)
    have digit : d.isDigit = true := all d List.mem_cons_self
    refine Takes.look takes_peek ?_
    simp only [List.cons_append, List.head?_cons, digit, if_true, below, decide_false,
      Bool.false_and, Bool.false_eq_true, if_false]
    exact Takes.step (takes_skip d)
      (ih (fun e mem => all e (List.mem_cons_of_mem _ mem)) (by simpa using enough) small)

theorem not_digit_of_ends (h : Ends rest) : ∀ x ∈ rest.head?, x.isDigit = false := by
  rcases cases_of_ends h with rfl | ⟨more, rfl | rfl | rfl⟩ <;> simp

/-- The digits of a power of ten, behind its sign. -/
theorem takes_powerDigits {e : Int} (refuseHuge : Bool) (ends : Ends rest)
    (small : e.natAbs ≤ exponentLimit) :
    (here >>= fun c => exponentDigits refuseHuge c.rest.length 0 >>= fun n =>
      pure (some (if e < 0 then -(n : Int) else n)) : Scan (Option Int)).Takes
      (Nat.toDigits 10 e.natAbs) (some e) rest := by
  refine takes_here fun c start => ?_
  have bound : Nat.ofDigitChars 10 (Nat.toDigits 10 e.natAbs) 0 ≤ exponentLimit := by
    rwa [Nat.ofDigitChars_ten_toDigits]
  have count : (exponentDigits refuseHuge c.rest.length 0).Takes (Nat.toDigits 10 e.natAbs)
      (Nat.ofDigitChars 10 (Nat.toDigits 10 e.natAbs) 0) rest :=
    takes_exponentDigits (fun _ => isDigit_of_mem_toDigits) (not_digit_of_ends ends)
      (by simp [start]) bound
  have read := Takes.map count fun n => (some (if e < 0 then -(n : Int) else n) : Option Int)
  have same : (if e < 0 then -(e.natAbs : Int) else e.natAbs) = e := by split <;> omega
  rwa [Nat.ofDigitChars_ten_toDigits, same] at read

/-- No power of ten, or the one that is written. -/
theorem takes_exponent (power : Option Int) {significant : Bool} (ends : Ends rest)
    (small : ∀ e ∈ power, e.natAbs ≤ exponentLimit) :
    (exponent significant).Takes (Numeral.powerText power) power rest := by
  cases power with
  | none =>
    refine Takes.look takes_peek ?_
    rcases cases_of_ends ends with rfl | ⟨more, rfl | rfl | rfl⟩
    all_goals exact takes_pure none
  | some e =>
    have run := fun refuseHuge => takes_powerDigits refuseHuge ends (small e rfl)
    obtain ⟨d, ds, written⟩ : ∃ d ds, Nat.toDigits 10 e.natAbs = d :: ds :=
      List.exists_cons_of_ne_nil Nat.toDigits_ne_nil
    have digit : d.isDigit = true := isDigit_of_mem_toDigits (n := e.natAbs) (by simp [written])
    refine Takes.look takes_peek (Takes.step (takes_skip 'e') ?_)
    by_cases below : e < 0
    · simp only [below, if_true] at run ⊢
      refine Takes.look takes_peek ?_
      refine Takes.step (takes_skip '-') ?_
      refine Takes.look (takes_pure true) ?_
      refine Takes.look takes_peek ?_
      simp only [written, List.cons_append, List.head?_cons, digit] at run ⊢
      exact run _
    · simp only [below, if_false] at run ⊢
      refine Takes.look takes_peek ?_
      refine Takes.step (takes_skip '+') ?_
      refine Takes.look (takes_pure false) ?_
      refine Takes.look takes_peek ?_
      simp only [written, List.cons_append, List.head?_cons, digit] at run ⊢
      exact run _

/-! ## §4. Numbers. -/

/-- What is read of a number behind its whole digits. -/
def afterWhole (negative : Bool) (whole : Nat) : Scan Number := do
  match ← peek with
  | some '.' =>
    skip
    let (value, places) ← digits whole 0
    if places = 0 then
      match ← peek with
      | some _ => failNext (.malformed .invalidNumber)
      | none => failHere (.malformed .endInValue)
    let e ← exponent (value != 0)
    doubleOf negative value (e.getD 0 - places)
  | _ =>
    match ← exponent (whole != 0) with
    | some e => doubleOf negative whole e
    | none =>
      if negative then
        if whole = 0 || twoTo 63 < whole then doubleOf true whole 0
        else return .int (-whole)
      else if whole < twoTo 64 then return .int whole
      else doubleOf false whole 0

/-- The whole digits of a number, without zeros in front. -/
structure IsWholePart (ds : List Char) : Prop where
  digits : ∀ d ∈ ds, d.isDigit = true
  ne : ds ≠ []
  zero : ∀ cs, ds = '0' :: cs → cs = []

theorem takes_unsigned {ds : List Char} {n : Number} (whole : IsWholePart ds)
    (stop : ∀ x ∈ (text ++ rest).head?, x.isDigit = false)
    (after : (afterWhole negative (Nat.ofDigitChars 10 ds 0)).Takes text n rest) :
    (unsigned negative).Takes (ds ++ text) n rest := by
  obtain ⟨d, cs, rfl⟩ := List.exists_cons_of_ne_nil whole.ne
  have digit : d.isDigit = true := whole.digits d List.mem_cons_self
  refine Takes.look takes_peek ?_
  simp only [List.cons_append, List.head?_cons, digit, Bool.not_true, Bool.false_eq_true, if_false]
  by_cases zero : d = '0'
  · -- a zero stands by itself
    subst zero
    obtain rfl := whole.zero cs rfl
    rw [if_pos rfl]
    refine Takes.step (takes_skip '0') ?_
    have next : digitNext.Takes [] false (text ++ rest) := by
      have look : peek.Takes [] (text ++ rest).head? (text ++ rest) := takes_peek
      have read := Takes.map look fun o => (o.map Char.isDigit).getD false
      cases found : (text ++ rest).head? with
      | none => rwa [found] at read
      | some x =>
        rw [found] at read
        have : x.isDigit = false := stop x found
        rw [Option.map_some, Option.getD_some, this] at read
        exact read
    refine Takes.look next ?_
    simp only [Bool.false_eq_true, if_false]
    exact Takes.look (takes_pure (0, 1)) after
  · rw [if_neg zero]
    exact Takes.bind (takes_digits whole.digits stop 0 0) after

theorem takes_doubleOf {value : Nat} {e : Int} {x : Double}
    (h : Double.ofDecimal negative value e = some x) :
    (doubleOf negative value e).Takes [] (.float x) rest := by
  unfold doubleOf
  rw [h]
  exact takes_pure _

/-- A numeral is read as the double of its digits and its power of ten. -/
theorem takes_numeral {n : Numeral} {x : Double} (form : n.WellFormed) (ends : Ends rest)
    (value : Double.ofDecimal negative n.digits n.exponent = some x) :
    (unsigned negative).Takes n.text (.float x) rest := by
  obtain ⟨whole, fraction, power⟩ := n
  have power_stop : ∀ c ∈ (Numeral.powerText power ++ rest).head?, c.isDigit = false := by
    cases power with
    | none => exact not_digit_of_ends ends
    | some e => simp [Numeral.powerText]
  have part : IsWholePart whole := ⟨form.whole_digits, form.whole_ne, form.whole_zero⟩
  cases fraction with
  | nil =>
    obtain ⟨e, rfl⟩ := Option.isSome_iff_exists.1 (form.inexact.resolve_left fun h => h rfl)
    simp only [Numeral.digits, Numeral.exponent, List.append_nil, Option.getD_some,
      List.length_nil, Nat.cast_zero, sub_zero] at value
    refine takes_unsigned part power_stop ?_
    refine Takes.look takes_peek ?_
    exact Takes.last (takes_exponent _ ends form.power_small) (takes_doubleOf value)
  | cons d ds =>
    simp only [Numeral.digits, Numeral.exponent] at value
    rw [Nat.ofDigitChars_append] at value
    refine takes_unsigned part (by simp [Numeral.fractionText]) ?_
    refine Takes.look takes_peek ?_
    refine Takes.step (takes_skip '.') ?_
    refine Takes.bind (takes_digits form.fraction_digits power_stop _ 0) ?_
    simp only [List.length_cons, Nat.zero_add, Nat.succ_ne_zero, if_false]
    exact Takes.last (takes_exponent _ ends form.power_small) (takes_doubleOf value)

/-- A sign in front, if there is one. -/
def signText (negative : Bool) : List Char := if negative then ['-'] else []

theorem takes_sign {d : Char} {n : Number} (digit : d.isDigit = true)
    (h : (unsigned negative).Takes (d :: text) n rest) :
    number.Takes (signText negative ++ d :: text) n rest := by
  refine Takes.look takes_peek ?_
  cases negative with
  | true => exact Takes.step (takes_skip '-') h
  | false =>
    have other : d ≠ '-' := by
      rintro rfl
      exact absurd digit (by decide)
    simp only [signText, Bool.false_eq_true, if_false, List.nil_append, List.cons_append,
      List.head?_cons]
    split
    case h_1 same => cases same; exact absurd rfl other
    case h_2 => exact h

theorem isWholePart_toDigits (n : Nat) : IsWholePart (Nat.toDigits 10 n) where
  digits _ := isDigit_of_mem_toDigits
  ne := Nat.toDigits_ne_nil
  zero cs front := by
    rcases Nat.eq_zero_or_pos n with rfl | pos
    · cases front
      rfl
    · obtain ⟨c, ds, written, nonzero⟩ := toDigits_head_ne_zero pos
      rw [written] at front
      cases front
      exact absurd rfl nonzero

theorem toString_int_toList (i : Int) :
    (toString i).toList = signText (decide (i < 0)) ++ Nat.toDigits 10 i.natAbs := by
  cases i with
  | ofNat n =>
    have : ¬(Int.ofNat n < 0) := by simp
    simp only [signText, this, decide_false, Bool.false_eq_true, if_false, List.nil_append]
    exact Nat.toList_repr
  | negSucc n =>
    have : Int.negSucc n < 0 := Int.negSucc_lt_zero n
    simp only [signText, this, decide_true, if_true]
    show ("-" ++ Nat.repr (n + 1)).toList = _
    rw [String.toList_append, Nat.toList_repr]
    rfl

/-- Whole digits behind which neither a point nor a power follows are read as an integer,
if their number is one of sixty-four bits. -/
theorem takes_afterWhole_int (ends : Ends rest) {i : Int} (low : -(twoTo 63 : Int) ≤ i)
    (high : i < (twoTo 64 : Int)) :
    (afterWhole (decide (i < 0)) i.natAbs).Takes [] (.int i) rest := by
  have h63 : twoTo 63 = 9223372036854775808 := by decide
  have h64 : twoTo 64 = 18446744073709551616 := by decide
  have sized : (if decide (i < 0) = true then
        if i.natAbs = 0 || twoTo 63 < i.natAbs then doubleOf true i.natAbs 0
        else pure (.int (-(i.natAbs : Int)))
      else if i.natAbs < twoTo 64 then pure (.int (i.natAbs : Int))
      else doubleOf false i.natAbs 0 : Scan Number) = pure (.int i) := by
    by_cases below : i < 0
    · have inside : ¬(i.natAbs = 0 || twoTo 63 < i.natAbs : Bool) = true := by
        simp only [Bool.or_eq_true, decide_eq_true_eq]
        omega
      have same : -(i.natAbs : Int) = i := by omega
      rw [if_pos (decide_eq_true below), if_neg inside, same]
    · have inside : i.natAbs < twoTo 64 := by omega
      have same : (i.natAbs : Int) = i := by omega
      rw [if_neg (by simpa using below), if_pos inside, same]
  have none : (exponent (i.natAbs != 0)).Takes [] none rest := takes_exponent none ends (by simp)
  refine Takes.look takes_peek ?_
  rcases cases_of_ends ends with rfl | ⟨more, rfl | rfl | rfl⟩
  all_goals
    refine Takes.look none ?_
    simp only [sized]
    exact takes_pure _

/-- An integer of sixty-four bits is read as itself. -/
theorem takes_int (ends : Ends rest) {i : Int} (low : -(twoTo 63 : Int) ≤ i)
    (high : i < (twoTo 64 : Int)) : number.Takes (toString i).toList (.int i) rest := by
  have whole := isWholePart_toDigits i.natAbs
  obtain ⟨d, ds, written⟩ := List.exists_cons_of_ne_nil whole.ne
  rw [toString_int_toList, written]
  refine takes_sign (whole.digits d (by simp [written])) ?_
  rw [← written, ← List.append_nil (Nat.toDigits 10 i.natAbs)]
  refine takes_unsigned whole (not_digit_of_ends ends) ?_
  rw [Nat.ofDigitChars_ten_toDigits]
  exact takes_afterWhole_int ends low high

end Scan

/-! ## §5. Doubles as numerals. -/

namespace Numeral

/-- The fraction that a numeral stands for. -/
def value (n : Numeral) : ℚ := n.digits * 10 ^ n.exponent

/-- Zeros behind some digits count in their number and not in their value. -/
theorem value_append_zeros (ds : List Char) (k : Nat) (e : Int) :
    (Nat.ofDigitChars 10 (ds ++ List.replicate k '0') 0 : ℚ) * 10 ^ e =
      Nat.ofDigitChars 10 ds 0 * 10 ^ (e + k) := by
  rw [Nat.ofDigitChars_append, Nat.ofDigitChars_replicate_zero, zpow_add₀ (by norm_num),
    zpow_natCast]
  push_cast
  ring

/-- Zeros in front count for nothing. -/
theorem digits_zeros_append (k : Nat) (ds : List Char) :
    Nat.ofDigitChars 10 (List.replicate k '0' ++ ds) 0 = Nat.ofDigitChars 10 ds 0 := by
  rw [Nat.ofDigitChars_append, Nat.ofDigitChars_replicate_zero, Nat.mul_zero]

theorem isDigit_zeros {k : Nat} : ∀ d ∈ List.replicate k '0', d.isDigit = true := by
  intro d mem
  rw [List.eq_of_mem_replicate mem]
  rfl

/-- The numeral is how a text is written, and stands for a fraction. -/
structure Writes (n : Numeral) (s : String) (v : ℚ) : Prop where
  form : n.WellFormed
  text : n.text = s.toList
  value : n.value = v

section Layouts

variable {ds : List Char} {lead : Int}

/-- Zeros between the point and the digits. -/
theorem writes_pointBefore (all : ∀ d ∈ ds, d.isDigit = true) (ne : ds ≠ [])
    (small : lead + 1 ≤ 0) :
    Writes ⟨['0'], List.replicate (-(lead + 1)).toNat '0' ++ ds, none⟩
      ("0." ++ String.ofList (List.replicate (-(lead + 1)).toNat '0' ++ ds))
      (Nat.ofDigitChars 10 ds 0 * 10 ^ (lead + 1 - ds.length)) where
  form :=
    { whole_digits := by simp
      fraction_digits := fun d mem => (List.mem_append.1 mem).elim (isDigit_zeros d) (all d)
      whole_ne := by simp
      whole_zero := fun _ h => by cases h; rfl
      inexact := .inl (by simp [ne])
      power_small := by simp }
  text := by
    obtain ⟨c, cs, fraction⟩ := List.exists_cons_of_ne_nil
      (l := List.replicate (-(lead + 1)).toNat '0' ++ ds) (by simp [ne])
    simp only [Numeral.text, fraction, fractionText, powerText, List.append_nil,
      String.toList_append, String.toList_ofList]
    rfl
  value := by
    have count : (((-(lead + 1)).toNat : Nat) : Int) = -(lead + 1) :=
      Int.toNat_of_nonneg (by omega)
    have same : (0 : Int) - (List.replicate (-(lead + 1)).toNat '0' ++ ds).length =
        lead + 1 - ds.length := by
      rw [List.length_append, List.length_replicate]
      push_cast
      omega
    simp only [Numeral.value, digits, exponent, Option.getD_none, same]
    rw [List.singleton_append, ← List.cons_append, ← List.replicate_succ, digits_zeros_append]

/-- Zeros between the digits and the point. -/
theorem writes_pointAfter (all : ∀ d ∈ ds, d.isDigit = true) (front : ∀ cs, ds ≠ '0' :: cs)
    (ne : ds ≠ []) (large : ds.length ≤ (lead + 1).toNat) (positive : ¬lead + 1 ≤ 0) :
    Writes ⟨ds ++ List.replicate ((lead + 1).toNat - ds.length) '0', ['0'], none⟩
      (String.ofList (ds ++ List.replicate ((lead + 1).toNat - ds.length) '0') ++ ".0")
      (Nat.ofDigitChars 10 ds 0 * 10 ^ (lead + 1 - ds.length)) where
  form :=
    { whole_digits := fun d mem => (List.mem_append.1 mem).elim (all d) (isDigit_zeros d)
      fraction_digits := by simp
      whole_ne := by simp [ne]
      whole_zero := by
        intro cs h
        obtain ⟨c, more, rfl⟩ := List.exists_cons_of_ne_nil ne
        cases h
        exact absurd rfl (front more)
      inexact := .inl (by simp)
      power_small := by simp }
  text := by
    simp only [Numeral.text, fractionText, powerText, List.append_nil, String.toList_append,
      String.toList_ofList]
    rfl
  value := by
    have count : (((lead + 1).toNat - ds.length + 1 : Nat) : Int) = lead + 1 - ds.length + 1 := by
      omega
    have zeros : ds ++ List.replicate ((lead + 1).toNat - ds.length) '0' ++ ['0'] =
        ds ++ List.replicate ((lead + 1).toNat - ds.length + 1) '0' := by
      rw [List.append_assoc, List.replicate_succ']
    simp only [Numeral.value, digits, exponent, Option.getD_none, zeros, value_append_zeros, count,
      List.length_singleton]
    congr 2
    push_cast
    ring

/-- A point among the digits. -/
theorem writes_pointInside (all : ∀ d ∈ ds, d.isDigit = true) (front : ∀ cs, ds ≠ '0' :: cs)
    (small : ¬ds.length ≤ (lead + 1).toNat) (positive : ¬lead + 1 ≤ 0) :
    Writes ⟨ds.take (lead + 1).toNat, ds.drop (lead + 1).toNat, none⟩
      (String.ofList (ds.take (lead + 1).toNat) ++ "." ++
        String.ofList (ds.drop (lead + 1).toNat))
      (Nat.ofDigitChars 10 ds 0 * 10 ^ (lead + 1 - ds.length)) where
  form :=
    { whole_digits := fun d mem => all d (List.mem_of_mem_take mem)
      fraction_digits := fun d mem => all d (List.mem_of_mem_drop mem)
      whole_ne := by
        rw [← List.length_pos_iff, List.length_take]
        omega
      whole_zero := by
        intro cs h
        refine absurd ?_ (front (cs ++ ds.drop (lead + 1).toNat))
        rw [← List.cons_append, ← h, List.take_append_drop]
      inexact := .inl (by
        rw [← List.length_pos_iff, List.length_drop]
        omega)
      power_small := by simp }
  text := by
    obtain ⟨c, cs, fraction⟩ := List.exists_cons_of_ne_nil (l := ds.drop (lead + 1).toNat) (by
      rw [← List.length_pos_iff, List.length_drop]
      omega)
    simp only [Numeral.text, fraction, fractionText, powerText, List.append_nil,
      String.toList_append, String.toList_ofList, List.append_assoc]
    rfl
  value := by
    have count : (0 : Int) - (ds.drop (lead + 1).toNat).length = lead + 1 - ds.length := by
      rw [List.length_drop]
      omega
    simp only [Numeral.value, digits, exponent, Option.getD_none, List.take_append_drop, count]

/-- A point behind the first of several digits, and a power of ten. -/
theorem writes_power (all : ∀ d ∈ ds, d.isDigit = true) (front : ∀ cs, ds ≠ '0' :: cs)
    (ne : ds ≠ []) (small : lead.natAbs ≤ Scan.exponentLimit) :
    Writes ⟨ds.take 1, ds.drop 1, some lead⟩ (placeExponent ds lead)
      (Nat.ofDigitChars 10 ds 0 * 10 ^ (lead + 1 - ds.length)) := by
  obtain ⟨d, cs, rfl⟩ := List.exists_cons_of_ne_nil ne
  have digit : d.isDigit = true := all d List.mem_cons_self
  have nonzero : d ≠ '0' := by
    rintro rfl
    exact front cs rfl
  exact
    { form :=
        { whole_digits := by simp [digit]
          fraction_digits := fun e mem => all e (List.mem_cons_of_mem _ mem)
          whole_ne := by simp
          whole_zero := fun _ h => by cases h; exact absurd rfl nonzero
          inexact := .inr rfl
          power_small := fun e h => by cases h; exact small }
      text := by
        have sign : ((if lead < 0 then "-" else "+" : String)).toList =
            [if lead < 0 then '-' else '+'] := by
          split <;> rfl
        have power : (toString lead.natAbs).toList = Nat.toDigits 10 lead.natAbs :=
          Nat.toList_repr
        unfold placeExponent
        cases cs with
        | nil =>
          simp only [Numeral.text, fractionText, powerText, String.toList_append,
            String.toList_ofList, sign, power, List.take, List.drop]
          rfl
        | cons e cs =>
          simp only [Numeral.text, fractionText, powerText, String.toList_append,
            String.toList_ofList, sign, power, List.take, List.drop, List.append_assoc]
          rfl
      value := by
        have count : lead - ((d :: cs).drop 1).length = lead + 1 - (d :: cs).length := by
          rw [List.length_drop, List.length_cons]
          omega
        simp only [Numeral.value, digits, exponent, Option.getD_some, List.take_append_drop,
          count] }

/-- Digits in the layout of JSON are a numeral of their value. -/
theorem exists_writes (all : ∀ d ∈ ds, d.isDigit = true) (front : ∀ cs, ds ≠ '0' :: cs)
    (ne : ds ≠ []) (small : lead.natAbs ≤ Scan.exponentLimit) :
    ∃ n : Numeral, n.Writes
      (if Layout.json.plain lead then placePoint true ds lead else placeExponent ds lead)
      (Nat.ofDigitChars 10 ds 0 * 10 ^ (lead + 1 - ds.length)) := by
  split
  next =>
    unfold placePoint
    simp only [if_true]
    split
    next before => exact ⟨_, writes_pointBefore all ne before⟩
    next positive =>
      split
      next whole => exact ⟨_, writes_pointAfter all front ne whole positive⟩
      next inside => exact ⟨_, writes_pointInside all front inside positive⟩
  next => exact ⟨_, writes_power all front ne small⟩

end Layouts

end Numeral

/-! ## §6. The round trip. -/

section Doubles

variable {x : Double}

theorem shortest_digits_pos (finite : x.isFinite = true) (nonzero : x.isZero = false) :
    0 < (shortest x).digits := by
  have low := ((shortest_near finite nonzero).bounds finite nonzero).1
  have : (0 : ℚ) < 10 ^ (-400 : ℤ) := by positivity
  rcases Nat.eq_zero_or_pos (shortest x).digits with none | pos
  · rw [Digits.value, none, Nat.cast_zero, zero_mul] at low
    linarith
  · exact pos

/-- The power of ten of the leading digit is far from the limit of exponents. -/
theorem lead_small (finite : x.isFinite = true) (nonzero : x.isZero = false) :
    ((shortest x).exponent + ((Nat.toDigits 10 (shortest x).digits).length - 1 : Nat)).natAbs ≤
      Scan.exponentLimit := by
  obtain ⟨low, high⟩ := (shortest_near finite nonzero).bounds finite nonzero
  obtain ⟨lower, upper⟩ := toDigits_bounds (shortest_digits_pos finite nonzero)
  have length_pos : 0 < (Nat.toDigits 10 (shortest x).digits).length := Nat.length_toDigits_pos
  generalize (Nat.toDigits 10 (shortest x).digits).length = k at *
  unfold Digits.value at low high
  generalize (shortest x).exponent = e at *
  have he : (0 : ℚ) < 10 ^ e := by positivity
  have powers {j l : ℤ} : (10 : ℚ) ^ j < 10 ^ l ↔ j < l := zpow_lt_zpow_iff_right₀ (by norm_num)
  -- the leading digit has the magnitude of the whole
  have notHigh : (k : ℤ) - 1 + e < 400 := by
    refine powers.1 (lt_of_le_of_lt ?_ high)
    rw [zpow_add₀ (by norm_num)]
    exact mul_le_mul_of_nonneg_right lower he.le
  have notLow : -400 < (k : ℤ) + e := by
    refine powers.1 (low.trans ?_)
    rw [zpow_add₀ (by norm_num)]
    exact mul_lt_mul_of_pos_right upper he
  have limit : Scan.exponentLimit = 2147483647 := by decide
  omega

/-- What is written for a double is a sign and a numeral that stands for its
shortest digits. -/
theorem exists_numeral (finite : x.isFinite = true) :
    ∃ n : Numeral, n.WellFormed ∧
      (x.render Layout.json).toList = Scan.signText x.isNegative ++ n.text ∧
      Double.ofDecimal x.isNegative n.digits n.exponent = some x := by
  have sign : (if x.isNegative then "-" else "" : String).toList = Scan.signText x.isNegative := by
    cases x.isNegative <;> rfl
  by_cases zero : x.isZero = true
  · refine ⟨⟨['0'], ['0'], none⟩, ⟨by simp, by simp, by simp, ?_, by simp, by simp⟩, ?_, ?_⟩
    · intro ds h
      cases h
      rfl
    · simp only [Double.render, finite, zero, Bool.not_true, Bool.false_eq_true, if_false, if_true,
        String.toList_append, sign]
      rfl
    · exact ofDecimal_of_zero zero _
  · rw [Bool.not_eq_true] at zero
    have pos := shortest_digits_pos finite zero
    obtain ⟨k, written⟩ := dropEndZeros_append (Nat.toDigits 10 (shortest x).digits)
    have small := lead_small finite zero
    have number : Nat.ofDigitChars 10 (Nat.toDigits 10 (shortest x).digits) 0 =
        (shortest x).digits := Nat.ofDigitChars_ten_toDigits
    obtain ⟨all, ne, front⟩ := dropEndZeros_toDigits pos
    obtain ⟨n, form, text, value⟩ := Numeral.exists_writes all front ne small
    refine ⟨n, form, ?_, ofDecimal_of_value finite zero ?_⟩
    · rw [text]
      simp only [Double.render, finite, zero, Bool.not_true, Bool.false_eq_true, if_false]
      rw [← sign, ← String.toList_append]
      split <;> rfl
    · -- the zeros that were dropped are made up for by the power
      rw [← Numeral.value, value, Digits.value]
      conv_rhs => rw [← number, written, Numeral.value_append_zeros]
      congr 2
      have count := congrArg List.length written
      rw [List.length_append, List.length_replicate] at count
      have : 0 < (Nat.toDigits 10 (shortest x).digits).length := Nat.length_toDigits_pos
      omega

end Doubles

/-- **A proper number is read as what it was written for.** -/
theorem Scan.takes_number {n : Number} (proper : n.isProper = true) {rest : List Char}
    (ends : Ends rest) : number.Takes n.print.toList n rest := by
  cases n with
  | int i =>
    simp only [Number.isProper, Bool.and_eq_true, decide_eq_true_eq] at proper
    exact takes_int ends proper.1 proper.2
  | float x =>
    obtain ⟨n, form, text, value⟩ := exists_numeral proper
    have whole : IsWholePart n.whole := ⟨form.whole_digits, form.whole_ne, form.whole_zero⟩
    obtain ⟨d, ds, front⟩ := List.exists_cons_of_ne_nil whole.ne
    have read := takes_numeral form ends value
    show Takes number (x.render Layout.json).toList _ _
    rw [text]
    simp only [Numeral.text, front, List.cons_append] at read ⊢
    exact takes_sign (whole.digits d (by simp [front])) read

/-- Where a number is written there is a digit or a sign. -/
theorem print_number_head {n : Number} (proper : n.isProper = true) :
    ∃ d ds, n.print.toList = d :: ds ∧ (d = '-' ∨ d.isDigit = true) := by
  have signed : ∀ (negative : Bool) {d : Char} {ds : List Char}, d.isDigit = true →
      ∃ e es, Scan.signText negative ++ d :: ds = e :: es ∧ (e = '-' ∨ e.isDigit = true) := by
    intro negative d ds digit
    cases negative with
    | true => exact ⟨'-', d :: ds, rfl, .inl rfl⟩
    | false => exact ⟨d, ds, rfl, .inr digit⟩
  cases n with
  | int i =>
    obtain ⟨d, ds, written⟩ : ∃ d ds, Nat.toDigits 10 i.natAbs = d :: ds :=
      List.exists_cons_of_ne_nil Nat.toDigits_ne_nil
    show ∃ e es, (toString i).toList = _ ∧ _
    rw [Scan.toString_int_toList, written]
    exact signed _ (isDigit_of_mem_toDigits (n := i.natAbs) (by simp [written]))
  | float x =>
    obtain ⟨n, form, text, -⟩ := exists_numeral proper
    obtain ⟨d, ds, front⟩ := List.exists_cons_of_ne_nil form.whole_ne
    show ∃ e es, (x.render Layout.json).toList = _ ∧ _
    rw [text, Numeral.text, front, List.cons_append]
    exact signed _ (form.whole_digits d (by simp [front]))

end LiteratureReview
