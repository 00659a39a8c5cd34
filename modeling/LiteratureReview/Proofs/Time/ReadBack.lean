/-
  LiteratureReview.Proofs.Time.ReadBack
  ─────────────────────────────────────
  Instants are read back from the texts that stand for them.

  A clock some minutes east of UTC shows an instant as a date and a time of
  day, and RFC 3339 spells what it shows in several ways (`SpelledAt`).  The
  strict grammar reads all of them as the instant
  (`parseStrict_of_spelledAt`), the calendar turning the clock back; the text
  that is stored is one of them.  The text of SQL has no offset, so that the
  strict grammar refuses it, and the grammar of SQL reads it
  (`parseStored_sql`).
-/
import LiteratureReview.Proofs.Time.Calendar
import LiteratureReview.Proofs.Time.Parts

namespace LiteratureReview.Time

/-! ## §1. Clocks. -/

/-- A date with a year of four digits. -/
def Date.HasPlainYear (d : Date) : Prop := 0 ≤ d.year ∧ d.year ≤ 9999

instance (d : Date) : Decidable d.HasPlainYear := inferInstanceAs (Decidable (_ ∧ _))

/-- A date of the calendar with a year of four digits, and a time of day that is in no leap
second. -/
structure DateTime.IsPlain (t : DateTime) : Prop where
  year : t.date.HasPlainYear
  month : 1 ≤ t.date.month ∧ t.date.month ≤ 12
  day : 1 ≤ t.date.day ∧ t.date.day ≤ 31
  valid : t.date.isValid = true
  hour : t.hour ≤ 23
  minute : t.minute ≤ 59
  second : t.second ≤ 59

namespace Instant

variable {i : Instant} {east : Int}

/-- What a clock shows some minutes east of UTC. -/
def clockAt (i : Instant) (east : Int) : DateTime :=
  Instant.toDateTime ⟨i.seconds + east * 60, i.nanos⟩

theorem clockAt_zero (i : Instant) : i.clockAt 0 = i.toDateTime := by
  rw [clockAt, Int.zero_mul, Int.add_zero]

theorem nanos_toDateTime (whole : i.nanos < 1000000000) : i.toDateTime.nanos = i.nanos := by
  rw [toDateTime_eq whole]

/-- A clock shows the nanoseconds of the instant, whatever the offset. -/
theorem withNanos_clockAt (whole : i.nanos < 1000000000) :
    { i.clockAt east with nanos := i.nanos } = i.clockAt east := by
  have nanos : (i.clockAt east).nanos = i.nanos :=
    @nanos_toDateTime ⟨i.seconds + east * 60, i.nanos⟩ whole
  rw [← nanos]

/-- A clock shows a date of the calendar and a time of day. -/
theorem isPlain_toDateTime (year : i.toDateTime.date.HasPlainYear) (whole : i.nanos < 1000000000) :
    i.toDateTime.IsPlain := by
  have count := i.day_eq
  obtain ⟨month_low, month_high, day_low, day_high⟩ := Date.ofDays_day_le i.day
  have most : daysInMonth (Date.ofDays i.day).year (Date.ofDays i.day).month ≤ 31 := by
    unfold daysInMonth
    repeat' split
    all_goals omega
  rw [toDateTime_eq whole] at year ⊢
  obtain ⟨low, high⟩ := year
  refine ⟨⟨low, high⟩, ⟨month_low, month_high⟩, ⟨day_low, Nat.le_trans day_high most⟩, ?_, ?_,
    ?_, ?_⟩
  · simp only at low high
    simp only [Date.isValid, yearLimit, Bool.and_eq_true, decide_eq_true_eq]
    exact ⟨⟨⟨⟨⟨decide_eq_true (by omega), decide_eq_true (by omega)⟩, month_low⟩, month_high⟩,
      day_low⟩, day_high⟩
  · simp only
    omega
  · simp only
    omega
  · simp only
    omega

theorem isPlain_clockAt (year : (i.clockAt east).date.HasPlainYear)
    (whole : i.nanos < 1000000000) : (i.clockAt east).IsPlain :=
  @isPlain_toDateTime ⟨i.seconds + east * 60, i.nanos⟩ year whole

/-- The years of a clock are plain. -/
theorem IsClock.hasPlainYear (clock : i.IsClock) : i.toDateTime.date.HasPlainYear := by
  have count := i.day_eq
  have low := clock.from_year_0
  have high := clock.to_year_9999
  rw [toDateTime_eq clock.nanos]
  exact Date.ofDays_year (by omega) (by omega)

/-- **What a clock shows at its offset is the instant.** -/
theorem toInstant_clockAt (whole : i.nanos < 1000000000) :
    (i.clockAt east).toInstant (east * 60) = i := by
  have shown := @toInstant_toDateTime ⟨i.seconds + east * 60, i.nanos⟩ whole
  unfold clockAt
  generalize Instant.toDateTime ⟨i.seconds + east * 60, i.nanos⟩ = t at shown
  obtain ⟨seconds, nanos⟩ := i
  simp only [DateTime.toInstant, Instant.mk.injEq] at shown ⊢
  exact ⟨by omega, shown.2⟩

theorem assemble_clockAt (year : i.toDateTime.date.HasPlainYear) (whole : i.nanos < 1000000000)
    (within : -1440 < east ∧ east < 1440) (plain : (i.clockAt east).IsPlain) :
    assemble (i.clockAt east) (east * 60) = .ok i := by
  have same : Date.ofDays (i.seconds.fdiv 86400) = i.toDateTime.date := by
    rw [toDateTime_eq whole]
    rfl
  have range : -yearLimit ≤ i.toDateTime.date.year ∧ i.toDateTime.date.year ≤ yearLimit - 1 := by
    obtain ⟨low, high⟩ := year
    unfold yearLimit
    omega
  have offset : -86400 < east * 60 ∧ east * 60 < 86400 := by omega
  simp only [assemble, plain.valid, offset, and_self, if_true, toInstant_clockAt whole, same, range]

end Instant

/-! ## §2. Texts. -/

/-- A date, every number in its full width. -/
def Date.text (d : Date) : List Char :=
  (padded 4 d.year.toNat).toList ++
    '-' :: ((padded 2 d.month).toList ++ '-' :: (padded 2 d.day).toList)

/-- A time of day in whole seconds. -/
def DateTime.timeText (t : DateTime) : List Char :=
  (padded 2 t.hour).toList ++
    ':' :: ((padded 2 t.minute).toList ++ ':' :: (padded 2 t.second).toList)

namespace Instant

/-- The texts by RFC 3339 of an instant some minutes east of UTC: the date and time that the
clock shows there, a letter or blank between them, a fraction, and the offset. -/
inductive SpelledAt (i : Instant) (east : Int) : String → Prop where
  | text {gap : Char} {fraction zone : List Char} (letter : gap = 'T' ∨ gap = 't' ∨ gap = ' ')
      (part : SpellsFraction i.nanos fraction) (offset : SpellsOffset east zone) :
      SpelledAt i east (String.ofList ((i.clockAt east).date.text ++
        gap :: ((i.clockAt east).timeText ++ (fraction ++ zone))))

/-- The text of SQL, in UTC and whole seconds. -/
def sql (i : Instant) : String :=
  String.ofList (i.toDateTime.date.text ++ ' ' :: i.toDateTime.timeText)

end Instant

/-! ## §3. What the grammars read. -/

section Grammars

variable {t : DateTime} {i : Instant} {east : Int} {s : String}

/-- The strict grammar reads a date and a time, and what it answers depends on what follows. -/
theorem parseStrict_clock (plain : t.IsPlain) {gap : Char}
    (letter : gap = 'T' ∨ gap = 't' ∨ gap = ' ') (rest : List Char) :
    parseStrict (String.ofList (t.date.text ++ gap :: (t.timeText ++ rest))) = (do
      let (nanos, cs) ← fraction rest
      let (offset, cs) ← offset (char ':') cs
      if !cs.isEmpty then throw .tooLong
      assemble { t with nanos := nanos } offset) := by
  obtain ⟨⟨low, high⟩, month, day, -, hour, minute, second⟩ := plain
  obtain ⟨⟨year, months, days⟩, hours, minutes, seconds, nanos⟩ := t
  simp only at low high month day hour minute second
  have readYear (rest : List Char) :=
    number_padded 4 4 year.toNat rest (by decide) (by decide) (by decide) (by omega)
  have readMonth (rest : List Char) := numberIn_padded 2 1 12 rest (by decide) month (by omega)
  have readDay (rest : List Char) := numberIn_padded 2 1 31 rest (by decide) day (by omega)
  have readHour (rest : List Char) :=
    numberIn_padded 2 0 23 rest (by decide) ⟨Nat.zero_le _, hour⟩ (by omega)
  have readMinute (rest : List Char) :=
    numberIn_padded 2 0 59 rest (by decide) ⟨Nat.zero_le _, minute⟩ (by omega)
  have readSecond (rest : List Char) :=
    numberIn_padded 2 0 60 rest (by decide) ⟨Nat.zero_le _, Nat.le_succ_of_le second⟩ (by omega)
  have readGap (rest : List Char) : dateTimeGap (gap :: rest) = .ok ((), rest) := by
    rcases letter with rfl | rfl | rfl <;> rfl
  have sameYear : (year.toNat : Int) = year := Int.toNat_of_nonneg low
  simp only [parseStrict, String.toList_ofList, Date.text, DateTime.timeText, List.append_assoc,
    List.cons_append, readYear, readMonth, readDay, readGap, readHour, readMinute, readSecond,
    char, if_true, bind, Except.bind, sameYear]

/-- The grammar of SQL reads a date and a time with a blank between them. -/
theorem parseSql_clock (plain : t.IsPlain) :
    parseSql (String.ofList (t.date.text ++ ' ' :: t.timeText)) =
      assemble { t with nanos := 0 } 0 := by
  obtain ⟨⟨low, high⟩, month, day, -, hour, minute, second⟩ := plain
  obtain ⟨⟨years, months, days⟩, hours, minutes, seconds, nanos⟩ := t
  simp only at low high month day hour minute second
  have readYear (rest : List Char) := @year_padded years.toNat rest (by omega)
  have readMonth (rest : List Char) := shortNumber_padded 1 12 rest month (by omega)
  have readDay (rest : List Char) := shortNumber_padded 1 31 rest day (by omega)
  -- the blank is passed over before the hour
  have readHour (rest : List Char) :
      shortNumber 0 23 (' ' :: ((padded 2 hours).toList ++ rest)) = .ok (hours, rest) := by
    have read := shortNumber_padded 0 23 rest ⟨Nat.zero_le _, hour⟩ (by omega)
    have skipped (cs : List Char) : Text.trimFront (' ' :: cs) = Text.trimFront cs := rfl
    rwa [shortNumber, skipped]
  have readMinute (rest : List Char) :=
    shortNumber_padded 0 59 rest ⟨Nat.zero_le _, minute⟩ (by omega)
  have readSecond := shortNumber_padded 0 60 [] ⟨Nat.zero_le _, Nat.le_succ_of_le second⟩ (by omega)
  rw [List.append_nil] at readSecond
  have sameYear : (years.toNat : Int) = years := Int.toNat_of_nonneg low
  simp only [parseSql, String.toList_ofList, Date.text, DateTime.timeText, List.append_assoc,
    List.cons_append, readYear, readMonth, readDay, readHour, readMinute, readSecond, char,
    if_true, bind, Except.bind, sameYear, List.isEmpty_nil, Bool.not_true, Bool.false_eq_true,
    if_false]

end Grammars

/-! ## §4. Reading back. -/

namespace Instant

variable {i : Instant} {east : Int} {s : String}

/-- **Whatever offset an instant is spelled with, the strict grammar reads the instant.** -/
theorem parseStrict_of_spelledAt (year : i.toDateTime.date.HasPlainYear)
    (whole : i.nanos < 1000000000) (there : (i.clockAt east).date.HasPlainYear)
    (spelled : i.SpelledAt east s) : parseStrict s = .ok i := by
  obtain ⟨letter, part, offset⟩ := spelled
  have plain := isPlain_clockAt there whole
  have readFraction := fraction_of_spells part offset.head.1 offset.head.2
  rw [parseStrict_clock plain letter]
  simp only [readFraction, offset_of_spells offset, bind, Except.bind, List.isEmpty_nil,
    Bool.not_true, Bool.false_eq_true, if_false, withNanos_clockAt whole,
    assemble_clockAt year whole offset.within_day plain]

/-- What is stored spells the instant in UTC. -/
theorem spelledAt_stored (year : i.toDateTime.date.HasPlainYear) (whole : i.nanos < 1000000000) :
    i.SpelledAt 0 i.stored := by
  have utc : SpellsOffset 0 "+00:00".toList := @SpellsOffset.east 0 0 (by decide) (by decide)
  have part := spellsFraction_writeFraction whole
  obtain ⟨low, high⟩ := year
  have dash : "-".toList = ['-'] := rfl
  have colon : ":".toList = [':'] := rfl
  have gap : "T".toList = ['T'] := rfl
  have written : i.stored.toList = i.toDateTime.date.text ++
      'T' :: (i.toDateTime.timeText ++ ((writeFraction i.nanos).toList ++ "+00:00".toList)) := by
    simp only [stored, write, writeYear, low, high, and_self, if_true, String.toList_append, dash,
      colon, gap, nanos_toDateTime whole, Date.text, DateTime.timeText, List.append_assoc,
      List.cons_append, List.nil_append]
  rw [← String.ofList_toList (s := i.stored), written, ← clockAt_zero]
  exact .text (.inl rfl) part utc

/-- **A stored instant is read back.** -/
theorem parseStored_stored (clock : i.IsClock) : parseStored i.stored = .ok i := by
  have year := clock.hasPlainYear
  have strict := parseStrict_of_spelledAt year clock.nanos (by rwa [clockAt_zero])
    (spelledAt_stored year clock.nanos)
  rw [parseStored, strict]

/-- **The text of SQL is read as the instant**, since the strict grammar misses an offset in
it. -/
theorem parseStored_sql (year : i.toDateTime.date.HasPlainYear) (zero : i.nanos = 0) :
    parseStored i.sql = .ok i := by
  have whole : i.nanos < 1000000000 := by omega
  have plain := isPlain_toDateTime year whole
  have strict : parseStrict i.sql = .error .tooShort := by
    have read := parseStrict_clock plain (.inr (.inr rfl)) []
    rw [List.append_nil] at read
    exact read
  have same : { i.toDateTime with nanos := 0 } = i.clockAt 0 := by
    rw [← zero, ← clockAt_zero, withNanos_clockAt whole]
  have assembled := @assemble_clockAt i 0 year whole (by decide) (by rwa [clockAt_zero])
  rw [parseStored, strict]
  show parseSql i.sql = .ok i
  rw [sql, parseSql_clock plain, same]
  exact assembled

end Instant

end LiteratureReview.Time
