/-
  LiteratureReview.Proofs.Store.Texts
  ───────────────────────────────────
  Texts that come back whole whatever was typed in.

  What a column gives back of a text ends at the first NUL.  In the texts
  the program composes itself there is none: ids are a code and hexadecimal
  digits, times and numbers have digits and signs, and JSON escapes the
  control characters of what it quotes.

    • `Json.nulFree_print` — a value on one line has no NUL,
    • `ProjectConfig.hasWholeTexts_toRow` — a configuration comes back whole,
      its protocol included.
-/
import LiteratureReview.Proofs.Store.Records

namespace LiteratureReview

open Text

variable {v : Json}

/-! ## §1. Numerals. -/

/-- A character that stands in a numeral. -/
def InNumeral (c : Char) : Prop := c.isDigit = true ∨ c ∈ ['-', '+', '.', 'e']

theorem InNumeral.ne_nul {c : Char} (h : InNumeral c) : c.toNat ≠ 0 := by
  intro zero
  rcases h with digit | sign
  · simp [Char.isDigit, UInt32.le_iff_toNat_le] at digit
    have : c.val.toNat = 0 := zero
    omega
  · revert zero
    simp only [List.mem_cons, List.not_mem_nil, or_false] at sign
    rcases sign with rfl | rfl | rfl | rfl <;> decide

theorem inNumeral_of_signText {negative : Bool} {c : Char} (h : c ∈ Scan.signText negative) :
    InNumeral c := by
  cases negative with
  | false => cases h
  | true => exact .inr (List.mem_singleton.1 h ▸ List.mem_cons_self)

theorem Numeral.inNumeral_of_powerText {power : Option Int} {c : Char}
    (h : c ∈ Numeral.powerText power) : InNumeral c := by
  cases power with
  | none => cases h
  | some e =>
    rcases List.mem_cons.1 h with rfl | h
    · exact .inr (by decide)
    rcases List.mem_cons.1 h with rfl | digit
    · split <;> exact .inr (by decide)
    · exact .inl (isDigit_of_mem_toDigits digit)

theorem Numeral.inNumeral_of_mem {n : Numeral} (form : n.WellFormed) {c : Char} (h : c ∈ n.text) :
    InNumeral c := by
  rcases List.mem_append.1 h with whole | h
  · exact .inl (form.whole_digits c whole)
  rcases List.mem_append.1 h with fraction | power
  · obtain ⟨whole, digits, power⟩ := n
    cases digits with
    | nil => cases fraction
    | cons d ds =>
      rcases List.mem_cons.1 fraction with rfl | digit
      · exact .inr (by decide)
      · exact .inl (form.fraction_digits c digit)
  · exact inNumeral_of_powerText power

theorem Number.nulFree_print {n : Number} (proper : n.isProper = true) : NulFree n.print := by
  intro c mem
  refine InNumeral.ne_nul ?_
  cases n with
  | int i =>
    replace mem : c ∈ (toString i).toList := mem
    rw [Scan.toString_int_toList, List.mem_append] at mem
    rcases mem with sign | digit
    · exact inNumeral_of_signText sign
    · exact .inl (isDigit_of_mem_toDigits digit)
  | float x =>
    obtain ⟨n, form, text, _⟩ := exists_numeral (x := x) proper
    replace mem : c ∈ (x.render Decimal.Layout.json).toList := mem
    rw [text, List.mem_append] at mem
    rcases mem with sign | numeral
    · exact inNumeral_of_signText sign
    · exact Numeral.inNumeral_of_mem form numeral

/-! ## §2. JSON. -/

namespace Json

/-- A character that JSON escapes is not among those it is escaped with. -/
theorem nulFree_escape (c : Char) : NulFree (escape c) := by
  rcases Scan.escape_cases c with ⟨letter, known, written⟩ | ⟨w, x, y, z, _, _, control, _⟩ |
    ⟨_, _, above, written⟩
  · have plain : ∀ e ∈ Scan.shortEscapes, e.1.toNat ≠ 0 := by decide
    intro u mem
    rw [written] at mem
    simp only [List.mem_cons, List.not_mem_nil, or_false] at mem
    rcases mem with rfl | rfl
    · decide
    · exact plain _ known
  · have spelled : ∀ n < 32, NulFree (escape (Char.ofNat n)) := by decide +kernel
    rw [← Char.ofNat_toNat c]
    exact spelled c.toNat control
  · intro u mem
    rw [written, List.mem_singleton] at mem
    rw [mem]
    omega

theorem nulFree_printText (s : String) : NulFree (printText s) := by
  have quote : NulFree "\"" := by decide
  refine nulFree_append.2 ⟨nulFree_append.2 ⟨quote, ?_⟩, quote⟩
  intro u mem
  rw [String.toList_join, List.flatMap_map] at mem
  obtain ⟨c, _, inside⟩ := List.mem_flatMap.1 mem
  exact nulFree_escape c u inside

theorem nulFree_printItems {items : List Json} (each : ∀ v ∈ items, NulFree v.print) :
    NulFree (printItems items) := by
  have comma : NulFree "," := by decide
  induction items with
  | nil => decide
  | cons v rest ih =>
    obtain ⟨first, others⟩ := List.forall_mem_cons.1 each
    cases rest with
    | nil => exact first
    | cons w rest => exact nulFree_append.2 ⟨nulFree_append.2 ⟨first, comma⟩, ih others⟩

theorem nulFree_printMembers {members : List (String × Json)}
    (each : ∀ m ∈ members, NulFree m.2.print) : NulFree (printMembers members) := by
  have comma : NulFree "," := by decide
  have colon : NulFree ":" := by decide
  induction members with
  | nil => decide
  | cons m rest ih =>
    obtain ⟨k, v⟩ := m
    obtain ⟨first, others⟩ := List.forall_mem_cons.1 each
    have front : NulFree (printText k ++ ":" ++ v.print) :=
      nulFree_append.2 ⟨nulFree_append.2 ⟨nulFree_printText k, colon⟩, first⟩
    cases rest with
    | nil => exact front
    | cons l rest => exact nulFree_append.2 ⟨nulFree_append.2 ⟨front, comma⟩, ih others⟩

/-- **A value on one line has no NUL.** -/
theorem nulFree_print (proper : v.IsProper) : NulFree v.print := by
  induction v using depth_induction with
  | step v ih =>
    cases v with
    | null => decide
    | bool b => cases b <;> decide
    | number n => exact n.nulFree_print proper
    | text s => exact nulFree_printText s
    | list items =>
      have inside := nulFree_printItems fun v mem =>
        ih v (depth_item_lt mem) (isProper_list_iff.1 proper v mem)
      exact nulFree_append.2 ⟨nulFree_append.2 ⟨by decide, inside⟩, by decide⟩
    | object members =>
      have inside := nulFree_printMembers fun m mem =>
        ih m.2 (depth_member_lt mem) ((isProper_object_iff.1 proper).2 m mem)
      exact nulFree_append.2 ⟨nulFree_append.2 ⟨by decide, inside⟩, by decide⟩

end Json

/-! ## §3. Ids. -/

theorem nulFree_hex (n : Nat) : NulFree (hex n) := by
  have digit : ∀ m < 16, (Nat.digitChar m).toNat ≠ 0 := by decide
  intro c mem
  rw [hex, String.toList_ofList] at mem
  induction n using Nat.strongRecOn with
  | ind n ih =>
    by_cases small : n < 16
    · rw [Nat.toDigits_of_lt_base small, List.mem_singleton] at mem
      exact mem ▸ digit n small
    · rw [Nat.toDigits_of_base_le (by decide) (by omega), List.mem_append] at mem
      rcases mem with front | last
      · exact ih (n / 16) (by omega) front
      · rw [List.mem_singleton] at last
        exact last ▸ digit _ (Nat.mod_lt _ (by decide))

theorem EntityType.nulFree_rowId (entity : EntityType) (word : UInt64) :
    NulFree (entity.rowId word) := by
  have code : NulFree entity.code := by cases entity <;> decide
  have dash : NulFree "-" := by decide
  refine nulFree_append.2 ⟨nulFree_append.2 ⟨code, dash⟩, nulFree_append.2 ⟨?_, nulFree_hex _⟩⟩
  intro c mem
  rw [String.toList_ofList] at mem
  rw [List.eq_of_mem_replicate mem]
  decide

/-! ## §4. Rows. -/

/-- **A configuration comes back whole** when its ids do, since the rest of it is composed
by the program. -/
theorem ProjectConfig.hasWholeTexts_toRow {r : ProjectConfig} (id : NulFree r.id)
    (projectId : NulFree r.projectId) (proper : r.protocol.encode.IsProper) :
    r.toRow.HasWholeTexts := by
  have conflict : NulFree r.conflictType.name := by cases r.conflictType <;> decide
  have resolution : NulFree r.conflictResolution.name := by
    cases r.conflictResolution <;> decide
  have mode : NulFree r.assignmentMode.name := by cases r.assignmentMode <;> decide
  have protocol : NulFree r.protocol.toText := Json.nulFree_print proper
  have time : NulFree r.createdAt.stored := Time.nulFree_stored _
  intro s mem
  refine untilNul_of_nulFree ?_
  -- flags and numbers are no texts, which leaves seven columns
  simp only [toRow, Cell.ofBool, Cell.ofU32, Cell.ofInstant, List.mem_cons, Cell.text.injEq,
    reduceCtorEq, List.not_mem_nil, or_false, false_or] at mem
  rcases mem with rfl | rfl | rfl | rfl | rfl | rfl | rfl
  · exact id
  · exact projectId
  · exact conflict
  · exact resolution
  · exact mode
  · exact protocol
  · exact time

end LiteratureReview
