/-
  LiteratureReview.Proofs.Store.Columns
  ─────────────────────────────────────
  What a column gives back of what was put into it.

  Every kind of column reads its own values: numbers and truth values come
  back as they are, texts as far as their first NUL, a name by its table, a
  time of the years 0 to 9999 whole.  Such a time is found in a column in
  more than one spelling, and all of them are read as the same instant
  (`parseInstant_spelled`).
-/
import LiteratureReview.Proofs.Time.ReadBack
import LiteratureReview.Store.Column

namespace LiteratureReview

open Time

/-! ## §1. Texts without a NUL. -/

namespace Text

/-- There is no NUL in the text. -/
def NulFree (s : String) : Prop := ∀ c ∈ s.toList, c.toNat ≠ 0

instance (s : String) : Decidable (NulFree s) :=
  decidable_of_iff (s.toList.all (fun c => c.toNat != 0) = true) (by simp [NulFree])

theorem untilNul_of_nulFree {s : String} (h : NulFree s) : untilNul s = s := by
  have all : ∀ c ∈ s.toList, (c.toNat != 0) = true := fun c mem => by simpa using h c mem
  have taken : (s.toList ++ []).takeWhile (fun c => c.toNat != 0) = s.toList ++ [] :=
    List.takeWhile_append_of_pos all
  rw [List.append_nil] at taken
  rw [untilNul, taken, String.ofList_toList]

@[simp] theorem nulFree_append {s t : String} : NulFree (s ++ t) ↔ NulFree s ∧ NulFree t := by
  simp [NulFree, or_imp, forall_and]

end Text

namespace Time

open Text

theorem nulFree_padded (width n : Nat) : NulFree (padded width n) := by
  intro c mem zero
  have digit := padded_digits c mem
  simp [Char.isDigit, UInt32.le_iff_toNat_le] at digit
  have : c.val.toNat = 0 := zero
  omega

theorem nulFree_writeYear (year : Int) : NulFree (writeYear year) := by
  unfold writeYear
  split
  · exact nulFree_padded _ _
  · refine nulFree_append.2 ⟨?_, nulFree_padded _ _⟩
    split <;> decide

theorem nulFree_writeFraction (nanos : Nat) : NulFree (writeFraction nanos) := by
  have point : NulFree "." := by decide
  unfold writeFraction
  split
  · decide
  · split
    · exact nulFree_append.2 ⟨point, nulFree_padded _ _⟩
    · split <;> exact nulFree_append.2 ⟨point, nulFree_padded _ _⟩

theorem nulFree_stored (i : Instant) : NulFree i.stored := by
  have dash : NulFree "-" := by decide
  have colon : NulFree ":" := by decide
  have mark : NulFree "T" := by decide
  have zone : NulFree "+00:00" := by decide
  simp only [Instant.stored, write, nulFree_append, nulFree_writeYear, nulFree_padded,
    nulFree_writeFraction, dash, colon, mark, zone, and_self]

end Time

/-! ## §2. Columns. -/

namespace Row

open Text

variable {row : Row} {i : Nat}

/-- What is read of a text that may be missing: nothing of the empty one. -/
def readOption (o : Option String) : Option String :=
  match o with
  | some s => if (untilNul s).isEmpty then none else some (untilNul s)
  | none => none

theorem text_of {s : String} (h : row.cell i = .text s) : row.text i = .ok (untilNul s) := by
  simp [Row.text, nullableText, h, bind, Except.bind, pure, Except.pure]

/-- Only a text is read as one, up to its first NUL. -/
theorem cell_of_text {s : String} (h : row.text i = .ok s) :
    ∃ t, row.cell i = .text t ∧ s = untilNul t := by
  unfold Row.text nullableText at h
  cases there : row.cell i with
  | text t =>
    rw [there] at h
    cases h
    exact ⟨t, rfl, rfl⟩
  | _ =>
    rw [there] at h
    cases h

theorem option_of {o : Option String} (h : row.cell i = .ofOption o) :
    row.option i = .ok (readOption o) := by
  unfold Row.option nullableText readOption
  cases o with
  | none => simp [h, Cell.ofOption, bind, Except.bind, pure, Except.pure]
  | some s =>
    simp only [h, Cell.ofOption, bind, Except.bind, pure, Except.pure]

theorem int_of {n : Int} (h : row.cell i = .int n) : row.int i = .ok n := by
  simp [Row.int, h]

theorem flag_of {b : Bool} (h : row.cell i = .ofBool b) : row.flag i = .ok b := by
  rw [flag, int_of h]
  cases b <;> rfl

theorem u32_of {n : UInt32} (h : row.cell i = .ofU32 n) : row.u32 i = .ok n := by
  have limit : Decimal.twoTo 32 = 4294967296 := by decide
  have inside : 0 ≤ (n.toNat : Int) ∧ (n.toNat : Int) < Decimal.twoTo 32 := by
    rw [limit]
    exact ⟨Int.natCast_nonneg _, Int.ofNat_lt.2 n.toNat_lt⟩
  unfold u32
  simp only [int_of h, bind, Except.bind, if_pos inside]
  simp only [pure, Except.pure, Int.toNat_natCast, UInt32.ofNat_toNat]

theorem real_of {x : Decimal.Double} (h : row.cell i = .real x) : row.real i = .ok x := by
  simp [Row.real, h]

/-- A name is read by its table. -/
theorem name_of {α : Type} {table : List (String × α)} {s : String} {a : α}
    (h : row.cell i = .text s) (nulFree : NulFree s) (known : table.lookup s = some a) :
    Row.name table row i = .ok a := by
  rw [Row.name, text_of h, untilNul_of_nulFree nulFree]
  simp only [bind, Except.bind, DatabaseError.parseName, Decoder.ofName, known, Except.mapError]

theorem instant_of {t : Instant} (clock : t.IsClock) (h : row.cell i = .ofInstant t) :
    row.instant i = .ok t := by
  rw [instant, text_of h, untilNul_of_nulFree (nulFree_stored t)]
  simp only [bind, Except.bind, DatabaseError.parseInstant, Instant.parseStored_stored clock,
    Except.mapError]

/-! ## §3. Rows whose texts come back whole. -/

/-- The texts of a row are read as they were written: none is cut off at a NUL. -/
def HasWholeTexts (row : Row) : Prop := ∀ s, Cell.text s ∈ row → untilNul s = s

/-- A text that is read as it was written, or no text. -/
def isWhole : Cell → Bool
  | .text s => untilNul s == s
  | _ => true

instance : Decidable (HasWholeTexts row) :=
  decidable_of_iff (row.all isWhole = true) (by
    rw [List.all_eq_true]
    constructor
    · intro whole s mem
      exact beq_iff_eq.1 (whole _ mem)
    · intro whole c mem
      cases c with
      | text s => exact beq_iff_eq.2 (whole s mem)
      | _ => rfl)

theorem mem_of_cell {c : Cell} (h : row.cell i = c) (given : c ≠ .null) : c ∈ row := by
  unfold cell at h
  rw [List.getD_eq_getElem?_getD] at h
  cases there : row[i]? with
  | none =>
    rw [there] at h
    exact absurd h.symm given
  | some d =>
    rw [there] at h
    obtain rfl : d = c := h
    exact List.mem_of_getElem? there

/-- A text that may be missing, the empty one counting as missing. -/
def nonempty (o : Option String) : Option String := o.filter fun s => !s.isEmpty

variable (whole : row.HasWholeTexts)

include whole

theorem HasWholeTexts.text {s : String} (h : row.cell i = .text s) : row.text i = .ok s := by
  rw [text_of h, whole s (mem_of_cell h nofun)]

theorem HasWholeTexts.option {o : Option String} (h : row.cell i = .ofOption o) :
    row.option i = .ok (nonempty o) := by
  rw [option_of h]
  cases o with
  | none => rfl
  | some s =>
    have same : untilNul s = s := whole s (mem_of_cell h nofun)
    simp only [readOption, same, nonempty, Option.filter]
    by_cases empty : s.isEmpty = true
    · simp [empty]
    · simp [empty]

/-- A document is read when its text is. -/
theorem HasWholeTexts.document {α : Type} {shape : Shape} {d : Decoder α} {s : String} {a : α}
    (h : row.cell i = .text s) (read : readText shape d s = .ok a) :
    Row.document shape d row i = .ok a := by
  rw [Row.document, whole.text h]
  simp only [bind, Except.bind, DatabaseError.parseDocument, read, Except.mapError]

end Row

/-! ## §4. Times. -/

namespace DatabaseError

variable {i : Instant} {s : String}

theorem parseInstant_of_parseStored (read : parseStored s = .ok i) : parseInstant s = .ok i := by
  rw [parseInstant, read]
  rfl

/-- **A time of the years 0 to 9999 is read back from the text that is stored of it**, from each
of its texts by RFC 3339, whatever the offset, as long as the year has four digits there too, and,
in whole seconds, from its text in SQL. -/
theorem parseInstant_spelled (year : i.toDateTime.date.HasPlainYear)
    (whole : i.nanos < 1000000000) :
    parseInstant i.stored = .ok i ∧
      (∀ east s, i.SpelledAt east s → (i.clockAt east).date.HasPlainYear →
        parseInstant s = .ok i) ∧
      (i.nanos = 0 → parseInstant i.sql = .ok i) := by
  refine ⟨?_, fun east s spelled there => ?_, fun zero => ?_⟩
  · have strict := Instant.parseStrict_of_spelledAt year whole (by rwa [Instant.clockAt_zero])
      (Instant.spelledAt_stored year whole)
    exact parseInstant_of_parseStored (by rw [parseStored, strict])
  · have strict := Instant.parseStrict_of_spelledAt year whole there spelled
    exact parseInstant_of_parseStored (by rw [parseStored, strict])
  · exact parseInstant_of_parseStored (Instant.parseStored_sql year zero)

/-- Half an hour before the end of a leap day, which is the day after in India. -/
def leapDay : Instant := ⟨1709249400, 0⟩

theorem parseInstant_leapDay :
    parseInstant "2024-02-29T23:30:00+00:00" = .ok leapDay ∧
      parseInstant "2024-03-01t05:00:00.0000000000+05:30" = .ok leapDay ∧
      parseInstant "2024-02-29 23:30:00" = .ok leapDay := by
  obtain ⟨stored, spelled, sql⟩ := @parseInstant_spelled leapDay (by decide) (by decide)
  have zeros : SpellsFraction 0 ('.' :: List.replicate 10 '0') := by
    refine .digits (by decide) (fun c mem => ?_) ?_
    · rw [List.eq_of_mem_replicate mem]
      rfl
    · rw [Nat.ofDigitChars_replicate_zero, Nat.mul_zero, Nat.zero_mul, Nat.zero_mul]
  have india : SpellsOffset 330 "+05:30".toList := @SpellsOffset.east 5 30 (by decide) (by decide)
  have there : leapDay.SpelledAt 330 "2024-03-01t05:00:00.0000000000+05:30" := by
    have spelled : leapDay.SpelledAt 330 _ := .text (.inr (.inl rfl)) zeros india
    have text : String.ofList ((leapDay.clockAt 330).date.text ++ 't' ::
        ((leapDay.clockAt 330).timeText ++ (('.' :: List.replicate 10 '0') ++ "+05:30".toList))) =
          "2024-03-01t05:00:00.0000000000+05:30" := by decide +kernel
    rwa [text] at spelled
  exact ⟨stored, spelled 330 _ there (by decide), sql rfl⟩

end DatabaseError

end LiteratureReview
