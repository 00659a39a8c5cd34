/-
  LiteratureReview.Proofs.Schema.Forms
  ────────────────────────────────────
  The forms of schemas that a grammar of records, lists and tagged unions
  is made of, and what each of them says about a value.

    • §1 keywords, §2 scalars, §3 lists and records, §4 tagged unions.
-/
import LiteratureReview.Proofs.Schema.Acceptance
import Mathlib

namespace LiteratureReview.Schema

open Json Grammar

variable {known : Known} {v : Json}

/-! ## §1. Keywords. -/

@[simp] theorem holds_always : Schema.always.holds known v = true := by
  rw [holds]

@[simp] theorem holds_ref {name : String} : (Schema.ref name).holds known v = known name v := by
  rw [holds]

@[simp] theorem holds_all_iff {parts : List Schema} :
    (Schema.all parts).holds known v = true ↔ ∀ s ∈ parts, s.holds known v = true := by
  rw [holds]
  induction parts with
  | nil => simp [holdsAll]
  | cons s rest ih => rw [holdsAll, Bool.and_eq_true, ih, List.forall_mem_cons]

theorem holds_properties_iff {schemas : List (String × Schema)} :
    (Schema.properties schemas).holds known v = true ↔
      ∀ m ∈ schemas, ∀ w, v.get? m.1 = some w → m.2.holds known w = true := by
  rw [holds]
  induction schemas with
  | nil => simp [holdsMembers]
  | cons m rest ih =>
    obtain ⟨key, s⟩ := m
    rw [holdsMembers, Bool.and_eq_true, ih, List.forall_mem_cons]
    cases v.get? key <;> simp

theorem holds_required_iff {keys : List String} (object : IsObject v) :
    (Schema.required keys).holds known v = true ↔ ∀ k ∈ keys, (v.get? k).isSome = true := by
  obtain ⟨members, rfl⟩ := object
  rw [holds, missingKeys, List.isEmpty_iff, List.filter_eq_nil_iff]
  simp [get?]

theorem holds_elements_iff {s : Schema} {items : List Json} :
    (Schema.elements s).holds known (.list items) = true ↔
      ∀ w ∈ items, s.holds known w = true := by
  rw [holds]
  simp [asList?]

theorem holds_constant_text_iff {s : String} :
    (Schema.constant (.text s)).holds known v = true ↔ v = .text s := by
  rw [holds, same_text_iff]

/-! ## §2. Scalars. -/

/-- A text. -/
def textual : Schema := .all [.type [.string]]

/-- A text or null. -/
def textOrNull : Schema := .all [.type [.null, .string]]

/-- A text of one character at least. -/
def nonEmpty : Schema := .all [.extent (.lengthAtLeast 1), .type [.string]]

/-- The pattern of identifiers. -/
def identifierPattern : Pattern where
  source := "^[A-Za-z_][A-Za-z0-9_]*$"
  fromStart := true
  pieces :=
    [⟨⟨false, [('A', 'Z'), ('a', 'z'), ('_', '_')]⟩, .once⟩,
     ⟨⟨false, [('A', 'Z'), ('a', 'z'), ('0', '9'), ('_', '_')]⟩, .anyNumber⟩]
  toEnd := true

/-- An identifier. -/
def identifier : Schema := .all [.pattern identifierPattern, .type [.string]]

/-- A truth value. -/
def boolean : Schema := .all [.type [.boolean]]

/-- A number. -/
def numeric : Schema := .all [.type [.number]]

/-- An integer in a range. -/
def whole (low high : Int) : Schema :=
  .all [.limit (.atMost (.int high)), .limit (.atLeast (.int low)), .type [.integer]]

/-- An integer in a range, or null. -/
def wholeOrNull (low high : Int) : Schema :=
  .all [.limit (.atMost (.int high)), .limit (.atLeast (.int low)), .type [.integer, .null]]

/-- An integer from a number on, or null. -/
def wholeFromOrNull (low : Int) : Schema :=
  .all [.limit (.atLeast (.int low)), .type [.integer, .null]]

/-- One of some texts. -/
def oneOfTexts (names : List String) : Schema :=
  .all [.enumeration (names.map .text), .type [.string]]

theorem holds_type_string_iff : (Schema.type [.string]).holds known v = true ↔ IsText v := by
  cases v <;> simp [holds, ValueType.holds, IsText]

theorem holds_textual_iff : textual.holds known v = true ↔ IsText v := by
  simp [textual, holds_type_string_iff]

theorem holds_textOrNull_iff : textOrNull.holds known v = true ↔ v = .null ∨ IsText v := by
  cases v <;> simp [textOrNull, holds, holdsAll, ValueType.holds, IsText]

theorem holds_nonEmpty_iff : nonEmpty.holds known v = true ↔ IsNonEmptyText v := by
  cases v with
  | text s =>
    have positive : 1 ≤ s.length ↔ s ≠ "" := by
      rw [Nat.one_le_iff_ne_zero, ne_eq, String.length_eq_zero_iff]
    simp [nonEmpty, holds, holdsAll, ValueType.holds, Extent.holds, IsNonEmptyText, positive]
  | _ => simp [nonEmpty, holds, holdsAll, ValueType.holds, IsNonEmptyText]

theorem holds_boolean_iff : boolean.holds known v = true ↔ IsBool v := by
  cases v <;> simp [boolean, holds, holdsAll, ValueType.holds, IsBool]

theorem holds_numeric_iff : numeric.holds known v = true ↔ IsNumber v := by
  cases v <;> simp [numeric, holds, holdsAll, ValueType.holds, IsNumber]

theorem holds_whole_iff {low high : Int} :
    (whole low high).holds known v = true ↔ IsWhole low (some high) v := by
  cases v <;>
    simp [whole, holds, holdsAll, ValueType.holds, Limit.holds, IsWhole, and_comm, and_assoc]

theorem holds_wholeOrNull_iff {low high : Int} :
    (wholeOrNull low high).holds known v = true ↔ v = .null ∨ IsWhole low (some high) v := by
  cases v <;>
    simp [wholeOrNull, holds, holdsAll, ValueType.holds, Limit.holds, IsWhole, and_comm, and_assoc]

theorem holds_wholeFromOrNull_iff {low : Int} :
    (wholeFromOrNull low).holds known v = true ↔ v = .null ∨ IsWhole low none v := by
  cases v <;>
    simp [wholeFromOrNull, holds, holdsAll, ValueType.holds, Limit.holds, IsWhole, and_comm]

theorem holds_oneOfTexts_iff {names : List String} :
    (oneOfTexts names).holds known v = true ↔ IsOneOf names v := by
  simp only [oneOfTexts, holds_all_iff, List.forall_mem_cons, holds_type_string_iff]
  simp only [holds, List.any_map, List.any_eq_true, Function.comp, same_text_iff]
  constructor
  · rintro ⟨⟨s, mem, rfl⟩, -⟩
    exact ⟨s, mem, rfl⟩
  · rintro ⟨s, mem, rfl⟩
    exact ⟨⟨s, mem, rfl⟩, ⟨s, rfl⟩, by simp⟩

/-- The first class of the pattern is what an identifier starts with. -/
theorem contains_first {c : Char} :
    LetterClass.contains ⟨false, [('A', 'Z'), ('a', 'z'), ('_', '_')]⟩ c
      = startsIdentifier c := by
  rw [Bool.eq_iff_iff]
  simp [LetterClass.contains, startsIdentifier, Char.isAlpha, Char.isUpper, Char.isLower,
    Char.le_def, Char.ext_iff, UInt32.le_iff_toNat_le, ← UInt32.toNat_inj]
  omega

/-- The second class is what it goes on with. -/
theorem contains_later {c : Char} :
    LetterClass.contains ⟨false, [('A', 'Z'), ('a', 'z'), ('0', '9'), ('_', '_')]⟩ c
      = continuesIdentifier c := by
  rw [Bool.eq_iff_iff]
  simp [LetterClass.contains, continuesIdentifier, Char.isAlphanum, Char.isAlpha, Char.isUpper,
    Char.isLower, Char.isDigit, Char.le_def, Char.ext_iff, UInt32.le_iff_toNat_le,
    ← UInt32.toNat_inj]
  omega

/-- Any number of letters of a class, up to the end. -/
theorem matchesHere_anyNumber {k : LetterClass} {cs : List Char} :
    Pattern.matchesHere true [⟨k, .anyNumber⟩] cs = cs.all k.contains := by
  show Pattern.repeated k (Pattern.matchesHere true []) cs = _
  induction cs with
  | nil => rfl
  | cons c rest ih =>
    rw [Pattern.repeated, ih, List.all_cons]
    simp [Pattern.matchesHere]

/-- The pattern matches identifiers and nothing else. -/
theorem accepts_identifierPattern (s : String) :
    identifierPattern.accepts s = isIdentifier s := by
  unfold Pattern.accepts isIdentifier
  cases s.toList with
  | nil => rfl
  | cons c rest =>
    show (LetterClass.contains _ c && Pattern.matchesHere true [⟨_, .anyNumber⟩] rest) = _
    rw [contains_first, matchesHere_anyNumber]
    congr 1
    exact List.all_congr rfl fun _ => contains_later

theorem holds_identifier_iff : identifier.holds known v = true ↔ IsName v := by
  cases v <;>
    simp [identifier, holds, holdsAll, ValueType.holds, Pattern.holds, IsName,
      accepts_identifierPattern]

/-! ## §3. Lists, references and records. -/

/-- A list of so many elements at least. -/
def listOf (least : Nat) (s : Schema) : Schema :=
  .all [.elements s, .extent (.countAtLeast least), .type [.array]]

/-- A list of so many elements at least, or null. -/
def listOrNull (least : Nat) (s : Schema) : Schema :=
  .all [.elements s, .extent (.countAtLeast least), .type [.array, .null]]

/-- A list of any length, or null. -/
def anyListOrNull (s : Schema) : Schema :=
  .all [.elements s, .type [.array, .null]]

/-- What a definition describes. -/
def reference (name : String) : Schema :=
  .all [.ref name]

/-- What a definition describes, or null. -/
def referenceOrNull (name : String) : Schema :=
  .all [.conditional (.all [.negate (.all [.type [.null]])]) (.all [.ref name]) .always]

/-- An object with schemas for some keys, some of which it has to have. -/
def record (schemas : List (String × Schema)) (keys : List String) : Schema :=
  .all [.properties schemas, .required keys, .type [.object]]

theorem holds_type_object_iff : (Schema.type [.object]).holds known v = true ↔ IsObject v := by
  cases v <;> simp [holds, ValueType.holds, IsObject]

theorem holds_listOf_iff {least : Nat} {s : Schema} :
    (listOf least s).holds known v = true ↔ IsListOf least (fun w => s.holds known w = true) v := by
  cases v with
  | list items =>
    simp only [listOf, holds_all_iff, List.forall_mem_cons, holds_elements_iff]
    simp [holds, ValueType.holds, Extent.holds, IsListOf, and_comm]
  | _ => simp [listOf, holds, holdsAll, ValueType.holds, IsListOf]

theorem holds_listOrNull_iff {least : Nat} {s : Schema} :
    (listOrNull least s).holds known v = true ↔
      v = .null ∨ IsListOf least (fun w => s.holds known w = true) v := by
  cases v with
  | list items =>
    simp only [listOrNull, holds_all_iff, List.forall_mem_cons, holds_elements_iff]
    simp [holds, ValueType.holds, Extent.holds, IsListOf, and_comm]
  | _ => simp [listOrNull, holds, holdsAll, ValueType.holds, Extent.holds, asList?, IsListOf]

theorem holds_anyListOrNull_iff {s : Schema} :
    (anyListOrNull s).holds known v = true ↔
      v = .null ∨ IsListOf 0 (fun w => s.holds known w = true) v := by
  cases v with
  | list items =>
    simp only [anyListOrNull, holds_all_iff, List.forall_mem_cons, holds_elements_iff]
    simp [holds, ValueType.holds, IsListOf]
  | _ => simp [anyListOrNull, holds, holdsAll, ValueType.holds, asList?, IsListOf]

@[simp] theorem holds_reference {name : String} :
    (reference name).holds known v = known name v := by
  simp [reference, holds, holdsAll]

theorem holds_referenceOrNull_iff {name : String} :
    (referenceOrNull name).holds known v = true ↔ v = .null ∨ known name v = true := by
  cases v <;> simp [referenceOrNull, holds, holdsAll, ValueType.holds]

theorem holds_record_iff {schemas : List (String × Schema)} {keys : List String} :
    (record schemas keys).holds known v = true ↔
      IsObject v ∧ keys.Forall (fun k => (v.get? k).isSome = true) ∧
        schemas.Forall fun m => ∀ w, v.get? m.1 = some w → m.2.holds known w = true := by
  simp only [List.forall_iff_forall_mem, record, holds_all_iff, List.forall_mem_cons,
    holds_properties_iff,
    holds_type_object_iff]
  constructor
  · rintro ⟨members, keys, object, -⟩
    exact ⟨object, (holds_required_iff object).1 keys, members⟩
  · rintro ⟨object, keys, members⟩
    exact ⟨members, (holds_required_iff object).2 keys, object, by simp⟩

/-- A required key with a schema is a key that is there with such a value. -/
theorem has_iff {key : String} {P : Json → Prop} :
    v.Has key P ↔ (v.get? key).isSome = true ∧ ∀ w, v.get? key = some w → P w := by
  constructor
  · rintro ⟨w, found, hw⟩
    refine ⟨by rw [found]; rfl, fun u there => ?_⟩
    obtain rfl := Option.some.inj (found.symm.trans there)
    exact hw
  · rintro ⟨some, each⟩
    obtain ⟨w, found⟩ := Option.isSome_iff_exists.1 some
    exact ⟨w, found, each w found⟩

/-! ## §4. Tagged unions. -/

/-- The tag names one variant. -/
def tagIs (tag variant : String) : Schema :=
  .all [.properties [(tag, .all [.constant (.text variant)])], .required [tag]]

/-- What holds when the tag names a variant. -/
def caseOf (tag variant content : String) : Schema :=
  .all [.conditional (tagIs tag variant)
    (.all [.ref content, .properties [(tag, .all [.constant (.text variant), .type [.string]])],
      .required [tag], .type [.object]]) .always]

/-- An object whose tag names one of some variants, each with a definition
for its contents. -/
def taggedUnion (tag : String) (variants : List (String × String)) : Schema :=
  .all [.all (variants.map fun c => caseOf tag c.1 c.2),
    .properties [(tag, oneOfTexts (variants.map (·.1)))], .required [tag], .type [.object]]

theorem holds_conditional_of_true {test consequence alternative : Schema}
    (h : test.holds known v = true) :
    (Schema.conditional test consequence alternative).holds known v =
      consequence.holds known v := by
  rw [holds, if_pos h]

theorem holds_conditional_of_false {test consequence alternative : Schema}
    (h : ¬test.holds known v = true) :
    (Schema.conditional test consequence alternative).holds known v =
      alternative.holds known v := by
  rw [holds, if_neg h]

theorem holds_tagIs_iff {tag variant name : String} (object : IsObject v)
    (found : v.get? tag = some (.text name)) :
    (tagIs tag variant).holds known v = true ↔ name = variant := by
  simp [tagIs, holds_properties_iff, holds_required_iff object, holds_constant_text_iff, found]

/-- Under a tag only the case it names says anything. -/
theorem holds_caseOf_iff {tag variant content name : String} (object : IsObject v)
    (found : v.get? tag = some (.text name)) :
    (caseOf tag variant content).holds known v = true ↔
      (name = variant → known content v = true) := by
  have test : (tagIs tag variant).holds known v = true ↔ name = variant :=
    holds_tagIs_iff object found
  simp only [caseOf, holds_all_iff, List.forall_mem_singleton]
  by_cases same : name = variant
  · rw [holds_conditional_of_true (test.2 same)]
    subst same
    simp [holds_properties_iff, holds_required_iff object, holds_constant_text_iff,
      holds_type_object_iff, holds_type_string_iff, found, object, IsText]
  · rw [holds_conditional_of_false (mt test.1 same)]
    simp [same]

theorem holds_taggedUnion_iff {tag : String} {variants : List (String × String)} :
    (taggedUnion tag variants).holds known v = true ↔
      IsObject v ∧ ∃ name ∈ variants.map (·.1), v.get? tag = some (.text name) ∧
        ∀ c ∈ variants, name = c.1 → known c.2 v = true := by
  simp only [taggedUnion, holds_all_iff, List.forall_mem_cons, holds_type_object_iff,
    holds_properties_iff, holds_oneOfTexts_iff, List.forall_mem_map]
  constructor
  · rintro ⟨cases, ⟨tags, -⟩, keys, object, -⟩
    have there := (holds_required_iff object).1 keys tag (by simp)
    obtain ⟨w, found⟩ := Option.isSome_iff_exists.1 there
    obtain ⟨name, mem, rfl⟩ := tags w found
    exact ⟨object, name, mem, found, fun c hc => (holds_caseOf_iff object found).1 (cases c hc)⟩
  · rintro ⟨object, name, mem, found, cases⟩
    refine ⟨fun c hc => (holds_caseOf_iff object found).2 (cases c hc), ⟨?_, by simp⟩, ?_, object,
      by simp⟩
    · intro w there
      exact ⟨name, mem, Option.some.inj (there.symm.trans found)⟩
    · exact (holds_required_iff object).2 (by simp [found])

end LiteratureReview.Schema
