/-
  LiteratureReview.Proofs.Time.Parts
  ──────────────────────────────────
  The parts of a text that is a time, and what they are read as.

  Numbers come in their full width (`number_padded`).  A fraction of a second
  has any number of digits, as long as it is the decimal fraction of the
  nanoseconds (`fraction_of_spells`); an offset from UTC is a letter, or a
  sign, hours and minutes (`offset_of_spells`).
-/
import LiteratureReview.Time.Text
import Mathlib

namespace LiteratureReview.Time

open Decimal

/-! ## §1. Numbers of full width. -/

section Numbers

variable {least width n : Nat} {rest : List Char}

theorem padded_toList (width n : Nat) :
    (padded width n).toList =
      List.replicate (width - (Nat.toDigits 10 n).length) '0' ++ Nat.toDigits 10 n := by
  simp [padded]

theorem padded_digits : ∀ c ∈ (padded width n).toList, c.isDigit = true := by
  intro c mem
  rw [padded_toList] at mem
  rcases List.mem_append.1 mem with zero | digit
  · rw [List.eq_of_mem_replicate zero]
    rfl
  · exact Nat.isDigit_of_mem_toDigits (by decide) (by decide) digit

theorem padded_length (pos : 0 < width) (h : n < 10 ^ width) :
    (padded width n).toList.length = width := by
  have short := (Nat.length_toDigits_le_iff (by decide) pos).2 h
  rw [padded_toList, List.length_append, List.length_replicate]
  omega

theorem digitsValue_eq (ds : List Char) : digitsValue ds = Nat.ofDigitChars 10 ds 0 := by
  unfold digitsValue
  generalize 0 = value
  induction ds generalizing value with
  | nil => rfl
  | cons d ds ih =>
    rw [List.foldl_cons, ih, Nat.ofDigitChars_cons, Nat.mul_comm]
    rfl

theorem ofDigitChars_padded (width n : Nat) :
    Nat.ofDigitChars 10 (padded width n).toList 0 = n := by
  rw [padded_toList, Nat.ofDigitChars_append, Nat.ofDigitChars_replicate_zero, Nat.mul_zero,
    Nat.ofDigitChars_ten_toDigits]

theorem digitsValue_padded (width n : Nat) : digitsValue (padded width n).toList = n := by
  rw [digitsValue_eq, ofDigitChars_padded]

theorem takeWhile_digits {ds : List Char} (all : ∀ c ∈ ds, c.isDigit = true)
    (stop : ∀ c ∈ rest.head?, c.isDigit = false) :
    (ds ++ rest).takeWhile Char.isDigit = ds := by
  rw [List.takeWhile_append_of_pos all]
  cases rest with
  | nil => simp
  | cons c more => simp [stop c (by simp)]

/-- Digits in front are taken up to the number wanted, or to their end. -/
theorem takeDigits_append {most : Nat} {ds : List Char}
    (all : ∀ c ∈ ds, c.isDigit = true) (enough : least ≤ ds.length)
    (stop : ds.length = most ∨ ds.length ≤ most ∧ ∀ c ∈ rest.head?, c.isDigit = false) :
    takeDigits least most (ds ++ rest) = .ok (ds, rest) := by
  have taken : ((ds ++ rest).take most).takeWhile Char.isDigit = ds := by
    rcases stop with rfl | ⟨short, stop⟩
    · rw [List.take_left]
      have := takeWhile_digits all (by simp : ∀ c ∈ ([] : List Char).head?, c.isDigit = false)
      rwa [List.append_nil] at this
    · rw [List.take_append, List.take_of_length_le short]
      refine takeWhile_digits all fun c mem => stop c ?_
      cases rest with
      | nil => simp at mem
      | cons d more =>
        cases h : most - ds.length with
        | zero => simp [h] at mem
        | succ k => simpa [h] using mem
  simp only [takeDigits, taken]
  rw [if_neg (by omega), List.drop_left]

/-- A number in its full width is read, also where fewer digits would do. -/
theorem number_padded (least width n : Nat) (rest : List Char) (few : least ≤ width)
    (pos : 0 < width) (narrow : width ≤ 18) (h : n < 10 ^ width) :
    number least width ((padded width n).toList ++ rest) = .ok (n, rest) := by
  have length := padded_length pos h
  have small : ¬twoTo 63 ≤ n := by
    have : 10 ^ width ≤ 10 ^ 18 := Nat.pow_le_pow_right (by decide) narrow
    have : twoTo 63 = 9223372036854775808 := by decide
    omega
  rw [number, takeDigits_append padded_digits (by omega) (.inl length)]
  simp only [bind, Except.bind, digitsValue_padded, small, if_false, pure, Except.pure]

theorem numberIn_padded (least low high : Nat) (rest : List Char) (few : least ≤ 2)
    (inside : low ≤ n ∧ n ≤ high) (small : n < 100) :
    numberIn least 2 low high ((padded 2 n).toList ++ rest) = .ok (n, rest) := by
  have outside : ¬(n < low ∨ high < n) := by omega
  rw [numberIn, number_padded least 2 n rest few (by decide) (by decide) small]
  simp only [bind, Except.bind, outside, if_false, pure, Except.pure]

/-- Two digits that are told one by one. -/
theorem exists_padded_two (small : n < 100) :
    ∃ a b, (padded 2 n).toList = [a, b] ∧ a.isDigit = true ∧ b.isDigit = true := by
  have length : (padded 2 n).toList.length = 2 := padded_length (by decide) small
  obtain ⟨a, b, same⟩ := List.length_eq_two.1 length
  have digits : ∀ c ∈ (padded 2 n).toList, c.isDigit = true := padded_digits
  rw [same] at digits
  exact ⟨a, b, same, digits a (by simp), digits b (by simp)⟩

theorem twoDigits_padded (rest : List Char) (small : n < 100) :
    twoDigits ((padded 2 n).toList ++ rest) = .ok (n, rest) := by
  obtain ⟨a, b, same, first, second⟩ := exists_padded_two small
  have value := digitsValue_padded 2 n
  rw [same] at value ⊢
  have enough : ¬(String.ofList (a :: b :: rest)).utf8ByteSize < 2 := by
    have := a.utf8Size_pos
    have := b.utf8Size_pos
    rw [String.utf8ByteSize_ofList, String.utf8Len_cons, String.utf8Len_cons]
    omega
  show (if _ then _ else _) = _
  simp only [List.cons_append, List.nil_append, enough, if_false, first, second, Bool.and_self,
    if_true, value]

/-- Digits are no blanks. -/
theorem isBlank_digit {c : Char} (digit : c.isDigit = true) : Text.isBlank c = false := by
  obtain ⟨low, high⟩ := Char.isDigit_iff_toNat.1 digit
  simp only [Char.reduceToNat] at low high
  simp only [Text.isBlank, Text.inRanges, Text.blanks, List.any_cons, List.any_nil, Bool.or_false,
    Bool.or_eq_false_iff, Bool.and_eq_false_iff, decide_eq_false_iff_not]
  omega

/-- A number in its full width begins with a digit. -/
theorem exists_padded_cons (pos : 0 < width) (h : n < 10 ^ width) (rest : List Char) :
    ∃ c cs, (padded width n).toList ++ rest = c :: cs ∧ c.isDigit = true := by
  have length := padded_length pos h
  obtain ⟨c, cs, same⟩ := List.exists_cons_of_length_pos (length ▸ pos)
  refine ⟨c, cs ++ rest, by rw [same, List.cons_append], @padded_digits width n c ?_⟩
  rw [same]
  exact List.mem_cons_self

theorem trimFront_padded (pos : 0 < width) (h : n < 10 ^ width) (rest : List Char) :
    Text.trimFront ((padded width n).toList ++ rest) = (padded width n).toList ++ rest := by
  obtain ⟨c, cs, same, digit⟩ := exists_padded_cons pos h rest
  rw [same, Text.trimFront, List.dropWhile_cons_of_neg (by simp [isBlank_digit digit])]

/-- Where blanks and short numbers may stand, numbers in their full width are read as well. -/
theorem shortNumber_padded (low high : Nat) (rest : List Char) (inside : low ≤ n ∧ n ≤ high)
    (small : n < 100) : shortNumber low high ((padded 2 n).toList ++ rest) = .ok (n, rest) := by
  rw [shortNumber, trimFront_padded (by decide) small,
    numberIn_padded 1 low high rest (by decide) inside small]

theorem year_padded (rest : List Char) (small : n < 10000) :
    year ((padded 4 n).toList ++ rest) = .ok ((n : Int), rest) := by
  obtain ⟨c, cs, same, digit⟩ := @exists_padded_cons 4 n (by decide) small rest
  have read := number_padded 1 4 n rest (by decide) (by decide) (by decide) small
  rw [year, trimFront_padded (by decide) small, same]
  rw [same] at read
  split
  next sign => exact absurd digit (by rw [(List.cons.inj sign).1]; decide)
  next sign => exact absurd digit (by rw [(List.cons.inj sign).1]; decide)
  next => simp only [read, bind, Except.bind, pure, Except.pure]

end Numbers

/-! ## §2. Fractions of a second. -/

/-- A fraction of a second as RFC 3339 spells it: nothing when it is zero, or a point and
digits, as many as one likes, whose decimal fraction it is. -/
inductive SpellsFraction : Nat → List Char → Prop where
  | whole : SpellsFraction 0 []
  | digits {nanos : Nat} {ds : List Char} (some : ds ≠ [])
      (all : ∀ c ∈ ds, c.isDigit = true)
      (value : Nat.ofDigitChars 10 ds 0 * 10 ^ 9 = nanos * 10 ^ ds.length) :
      SpellsFraction nanos ('.' :: ds)

section Fractions

variable {nanos : Nat} {ds cs rest : List Char}

theorem ofDigitChars_lt (all : ∀ c ∈ ds, c.isDigit = true) :
    Nat.ofDigitChars 10 ds 0 < 10 ^ ds.length := by
  induction ds with
  | nil => decide
  | cons d ds ih =>
    obtain ⟨first, later⟩ := List.forall_mem_cons.1 all
    have digit : d.toNat - '0'.toNat ≤ 9 := by
      have := (Char.isDigit_iff_toNat.1 first).2
      simp only [Char.reduceToNat] at this ⊢
      omega
    have scaled := Nat.mul_le_mul_left (10 ^ ds.length) digit
    have below := ih later
    rw [Nat.ofDigitChars_cons, Nat.ofDigitChars_eq_ofDigitChars_zero, Nat.mul_zero, Nat.zero_add,
      List.length_cons, Nat.pow_succ]
    omega

/-- Of up to nine digits, each counts. -/
theorem scaled_of_short (short : ds.length ≤ 9)
    (value : Nat.ofDigitChars 10 ds 0 * 10 ^ 9 = nanos * 10 ^ ds.length) :
    digitsValue ds * tenTo (9 - ds.length) = nanos := by
  have split : 10 ^ 9 = 10 ^ (9 - ds.length) * 10 ^ ds.length := by
    rw [← Nat.pow_add, Nat.sub_add_cancel short]
  rw [split, ← Nat.mul_assoc] at value
  rw [digitsValue_eq]
  exact Nat.eq_of_mul_eq_mul_right (Nat.pow_pos (by decide)) value

/-- Of more digits, those behind the ninth do not count: they are zeros, since the fraction is
one of nanoseconds. -/
theorem value_of_long {front behind : List Char} (long : front.length = 9)
    (all : ∀ c ∈ behind, c.isDigit = true)
    (value : Nat.ofDigitChars 10 (front ++ behind) 0 * 10 ^ 9 =
      nanos * 10 ^ (front ++ behind).length) :
    digitsValue front = nanos := by
  have below : Nat.ofDigitChars 10 behind 0 < 10 ^ behind.length := ofDigitChars_lt all
  rw [Nat.ofDigitChars_append, Nat.ofDigitChars_eq_ofDigitChars_zero, List.length_append, long,
    Nat.add_comm 9, Nat.pow_add, ← Nat.mul_assoc] at value
  have value := Nat.eq_of_mul_eq_mul_right (by decide) value
  rw [digitsValue_eq]
  have pos : 0 < 10 ^ behind.length := Nat.pow_pos (by decide)
  calc Nat.ofDigitChars 10 front 0
      = (10 ^ behind.length * Nat.ofDigitChars 10 front 0 + Nat.ofDigitChars 10 behind 0) /
          10 ^ behind.length := by
        rw [Nat.mul_add_div pos, Nat.div_eq_of_lt below, Nat.add_zero]
    _ = nanos := by rw [value, Nat.mul_div_cancel _ pos]

/-- **A fraction is read as the nanoseconds it is a fraction of.** -/
theorem fraction_of_spells (spelled : SpellsFraction nanos cs)
    (stop : ∀ c ∈ rest.head?, c.isDigit = false) (noPoint : rest.head? ≠ some '.') :
    fraction (cs ++ rest) = .ok (nanos, rest) := by
  have behind : rest.dropWhile Char.isDigit = rest := by
    cases rest with
    | nil => rfl
    | cons c more => rw [List.dropWhile_cons_of_neg (by simp [stop c (by simp)])]
  cases spelled with
  | whole =>
    show fraction rest = _
    unfold fraction
    split
    next => exact absurd rfl noPoint
    next => rfl
  | @digits _ ds some all value =>
    have pos := List.length_pos_iff.2 some
    rw [List.cons_append, fraction]
    by_cases short : ds.length ≤ 9
    · rw [takeDigits_append all pos (.inr ⟨short, stop⟩)]
      simp only [bind, Except.bind, scaled_of_short short value, behind, pure, Except.pure]
    · -- the first nine digits are taken, and the others passed over
      have nine : (ds.take 9).length = 9 := by
        rw [List.length_take]
        omega
      rw [← List.take_append_drop 9 ds] at value
      have early : ∀ c ∈ ds.take 9, c.isDigit = true :=
        fun c mem => all c (List.mem_of_mem_take mem)
      have late : ∀ c ∈ ds.drop 9, c.isDigit = true :=
        fun c mem => all c (List.mem_of_mem_drop mem)
      have taken : takeDigits 1 9 (ds.take 9 ++ (ds.drop 9 ++ rest)) = _ :=
        takeDigits_append early (by omega) (.inl nine)
      rw [← List.append_assoc, List.take_append_drop] at taken
      rw [taken]
      simp only [bind, Except.bind, nine, value_of_long nine late value,
        List.dropWhile_append_of_pos late, behind, pure, Except.pure]
      rw [show tenTo (9 - 9) = 1 from rfl, Nat.mul_one]

theorem spellsFraction_padded (width : Nat) {n : Nat} (pos : 0 < width) (small : n < 10 ^ width)
    (value : n * 10 ^ 9 = nanos * 10 ^ width) :
    SpellsFraction nanos ('.' :: (padded width n).toList) := by
  have length := padded_length pos small
  refine .digits ?_ padded_digits ?_
  · rw [← List.length_pos_iff, length]
    exact pos
  · rw [ofDigitChars_padded, length, value]

/-- A fraction is written as one that spells it. -/
theorem spellsFraction_writeFraction (small : nanos < 1000000000) :
    SpellsFraction nanos (writeFraction nanos).toList := by
  have point (s : String) : ("." ++ s).toList = '.' :: s.toList := by
    rw [String.toList_append]
    rfl
  unfold writeFraction
  -- in three, six or nine digits, the fewest that lose nothing
  split
  next zero =>
    rw [zero]
    exact .whole
  next =>
    split
    next thousands =>
      rw [point]
      exact spellsFraction_padded 3 (by decide) (by omega) (by omega)
    next =>
      split
      next units =>
        rw [point]
        exact spellsFraction_padded 6 (by decide) (by omega) (by omega)
      next =>
        rw [point]
        exact spellsFraction_padded 9 (by decide) small rfl

end Fractions

/-! ## §3. Offsets. -/

/-- An offset from UTC, in minutes to the east, as RFC 3339 spells it: a letter for UTC
itself, or a sign, hours and minutes. -/
inductive SpellsOffset : Int → List Char → Prop where
  | utc {mark : Char} (letter : mark = 'Z' ∨ mark = 'z') : SpellsOffset 0 [mark]
  | east {hours minutes : Nat} (day : hours < 24) (hour : minutes < 60) :
      SpellsOffset (hours * 60 + minutes : Nat)
        ('+' :: ((padded 2 hours).toList ++ ':' :: (padded 2 minutes).toList))
  | west {hours minutes : Nat} (day : hours < 24) (hour : minutes < 60) :
      SpellsOffset (-(hours * 60 + minutes : Nat))
        ('-' :: ((padded 2 hours).toList ++ ':' :: (padded 2 minutes).toList))

section Offsets

variable {east : Int} {cs : List Char}

/-- Offsets are less than a day. -/
theorem SpellsOffset.within_day (spelled : SpellsOffset east cs) : -1440 < east ∧ east < 1440 := by
  cases spelled <;> omega

/-- No offset is taken for more of the fraction in front of it. -/
theorem SpellsOffset.head (spelled : SpellsOffset east cs) :
    (∀ c ∈ cs.head?, c.isDigit = false) ∧ cs.head? ≠ some '.' := by
  cases spelled with
  | utc letter => rcases letter with rfl | rfl <;> exact ⟨by rintro c ⟨⟩; rfl, by decide⟩
  | east | west => exact ⟨by rintro c ⟨⟩; rfl, by simp⟩

/-- Hours and minutes behind a sign, as they are read. -/
def signed (sign : Int) : Part Int := fun cs => do
  let (hours, cs) ← twoDigits cs
  let (_, cs) ← char ':' cs
  let (minutes, cs) ← twoDigits cs
  if 59 < minutes then throw .outOfRange
  return (sign * (hours * 3600 + minutes * 60 : Nat), cs)

theorem signed_padded {sign : Int} {hours minutes : Nat} (day : hours < 24) (hour : minutes < 60) :
    signed sign ((padded 2 hours).toList ++ ':' :: (padded 2 minutes).toList) =
      .ok (sign * (hours * 60 + minutes : Nat) * 60, []) := by
  have readHours := @twoDigits_padded hours (':' :: (padded 2 minutes).toList) (by omega)
  have readMinutes := @twoDigits_padded minutes [] (by omega)
  rw [List.append_nil] at readMinutes
  have late : ¬59 < minutes := by omega
  have seconds : ((hours * 3600 + minutes * 60 : Nat) : Int) =
      ((hours * 60 + minutes : Nat) : Int) * 60 := by omega
  simp only [signed, readHours, readMinutes, char, late, seconds, bind, Except.bind, if_true,
    if_false, pure, Except.pure, Int.mul_assoc]

/-- **An offset is read as its seconds.** -/
theorem offset_of_spells (spelled : SpellsOffset east cs) :
    offset (char ':') cs = .ok (east * 60, []) := by
  cases spelled with
  | utc letter => rcases letter with rfl | rfl <;> rfl
  | east day hour =>
    have opened (cs : List Char) : offset (char ':') ('+' :: cs) = signed 1 cs := rfl
    rw [opened, signed_padded day hour, Int.one_mul]
  | west day hour =>
    have opened (cs : List Char) : offset (char ':') ('-' :: cs) = signed (-1) cs := rfl
    rw [opened, signed_padded day hour, Int.neg_one_mul]

end Offsets

end LiteratureReview.Time
