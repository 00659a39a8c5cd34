/-
  LiteratureReview.Proofs.Json.Scanning
  ─────────────────────────────────────
  Scanning texts that are known.

  `Takes s text a rest` says what a scan does in front of a known text: it
  consumes `text`, whatever line and column it starts on, gives `a`, and
  stops before `rest`.  It composes along `>>=` (`Takes.bind`), so that the
  scan of a printed text is put together like the text.

    • `takes_peek`, `takes_skip`, `takes_word` — single characters,
    • `takes_string` — what `printText` writes is read by `string`,
    • `takes_digits` — a run of digits,
    • `shaped_zero` — a scan that has no fuel left fails.
-/
import LiteratureReview.Json.Printer
import LiteratureReview.Json.Shape

namespace LiteratureReview

/-! ## §1. Moving the cursor. -/

namespace Cursor

theorem advance_rest {c : Cursor} {x : Char} {rest : List Char} (h : c.rest = x :: rest) :
    c.advance.rest = rest := by
  unfold advance
  split
  case h_1 none => rw [none] at h; cases h
  case h_2 found => rw [found] at h; cases h; rfl
  case h_3 found => rw [found] at h; cases h; rfl

/-- Skipping blanks stays put before anything else. -/
theorem skipSpace_rest {c : Cursor} (h : ∀ x ∈ c.rest.head?, isSpace x = false) :
    c.skipSpace.rest = c.rest := by
  unfold skipSpace
  cases found : c.rest with
  | nil => rfl
  | cons x rest =>
    have solid : isSpace x = false := h x (by simp [found])
    unfold skipSpace.go
    split
    case h_1 same => cases same; exact absurd solid (by decide)
    case h_2 same => cases same; simp [solid]
    case h_3 none => cases none

end Cursor

namespace Scan

variable {α β : Type} {text rest : List Char}

/-- Before `text` and then `rest`, the scan consumes `text` and gives `a`. -/
def Takes (s : Scan α) (text : List Char) (a : α) (rest : List Char) : Prop :=
  ∀ c : Cursor, c.rest = text ++ rest → ∃ d : Cursor, s c = .ok (a, d) ∧ d.rest = rest

/-! ## §2. Composition. -/

theorem takes_pure (a : α) : (pure a : Scan α).Takes [] a rest :=
  fun c h => ⟨c, rfl, h⟩

/-- One scan after the other takes one text after the other. -/
theorem Takes.bind {s : Scan α} {f : α → Scan β} {t u : List Char} {a : α} {b : β}
    (first : s.Takes t a (u ++ rest)) (second : (f a).Takes u b rest) :
    (s >>= f).Takes (t ++ u) b rest := by
  intro c h
  rw [List.append_assoc] at h
  obtain ⟨d, run, there⟩ := first c h
  obtain ⟨e, more, done⟩ := second d there
  refine ⟨e, ?_, done⟩
  show (StateT.bind s f) c = _
  simp only [StateT.bind, run]
  exact more

/-- A scan that only looks, and then one that takes the text. -/
theorem Takes.look {s : Scan α} {f : α → Scan β} {a : α} {b : β}
    (first : s.Takes [] a (text ++ rest)) (second : (f a).Takes text b rest) :
    (s >>= f).Takes text b rest :=
  Takes.bind first second

/-- A scan that takes one character, and then one that takes the others. -/
theorem Takes.step {s : Scan α} {f : α → Scan β} {x : Char} {a : α} {b : β}
    (first : s.Takes [x] a (text ++ rest)) (second : (f a).Takes text b rest) :
    (s >>= f).Takes (x :: text) b rest :=
  Takes.bind first second

/-- A scan that takes the text, and then one that takes nothing. -/
theorem Takes.last {s : Scan α} {f : α → Scan β} {a : α} {b : β}
    (first : s.Takes text a rest) (second : (f a).Takes [] b rest) :
    (s >>= f).Takes text b rest := by
  have := Takes.bind (u := []) first second
  rwa [List.append_nil] at this

theorem Takes.map {s : Scan α} {a : α} (h : s.Takes text a rest) (f : α → β) :
    (s >>= fun x => pure (f x)).Takes text (f a) rest :=
  Takes.last h (takes_pure (f a))

/-- What is done with the cursor may depend on the text it stands before. -/
theorem takes_here {f : Cursor → Scan β} {b : β}
    (h : ∀ c : Cursor, c.rest = text ++ rest → (f c).Takes text b rest) :
    (here >>= f).Takes text b rest :=
  fun c start => h c start c start

/-! ## §3. Characters. -/

theorem takes_peek : peek.Takes [] rest.head? rest := by
  intro c h
  refine ⟨c, ?_, h⟩
  show Except.ok (c.rest.head?, c) = _
  rw [h]
  rfl

theorem takes_skip (x : Char) : skip.Takes [x] () rest :=
  fun c h => ⟨c.advance, rfl, Cursor.advance_rest h⟩

theorem takes_peekToken (h : ∀ x ∈ rest.head?, Cursor.isSpace x = false) :
    peekToken.Takes [] rest.head? rest := by
  intro c start
  rw [List.nil_append] at start
  have stay : c.skipSpace.rest = rest := by
    rw [← start] at h
    rw [Cursor.skipSpace_rest h, start]
  refine ⟨c.skipSpace, ?_, stay⟩
  show Except.ok (c.skipSpace.rest.head?, c.skipSpace) = _
  rw [stay]

/-- The rest of a word is taken letter by letter. -/
theorem takes_word (letters : List Char) : (word letters).Takes letters () rest := by
  induction letters with
  | nil => exact takes_pure ()
  | cons x more ih =>
    refine Takes.look takes_peek ?_
    show Takes (if x = x then _ else _) _ _ _
    rw [if_pos rfl]
    exact Takes.step (takes_skip x) ih

/-! ## §4. Strings. -/

section Strings

variable {acc : List Char} {fuel : Nat} {c : Char}

/-- A character of one byte that is not a line end. -/
def IsPlain (x : Char) : Prop := x.utf8Size = 1 ∧ x ≠ '\n'

instance (x : Char) : Decidable (IsPlain x) := inferInstanceAs (Decidable (_ ∧ _))

theorem behindBytes_cons {x : Char} (plain : IsPlain x) (n line column : Nat) :
    behindBytes.go (x :: rest) (n + 1) line column = behindBytes.go rest n line (column + 1) := by
  obtain ⟨size, noLine⟩ := plain
  rw [behindBytes.go]
  · rw [size, if_pos (by omega)]
    rfl
  · exact noLine

/-- Four hexadecimal digits are read as the number they spell. -/
theorem takes_hex4 {w x y z : Char} {n : Nat} (plain : ∀ u ∈ [w, x, y, z], IsPlain u)
    (spelled : hex4? [w, x, y, z] = some n) : hex4.Takes [w, x, y, z] n rest := by
  simp only [List.forall_mem_cons] at plain
  obtain ⟨hw, hx, hy, hz, -⟩ := plain
  refine takes_here fun c start => ?_
  have front : c.rest.take 4 = [w, x, y, z] := by rw [start]; rfl
  have behind : (behindBytes c 4).rest = rest := by
    rw [behindBytes, start]
    show (behindBytes.go (w :: x :: y :: z :: rest) (3 + 1) c.line c.column).rest = rest
    rw [behindBytes_cons hw, behindBytes_cons hx, behindBytes_cons hy, behindBytes_cons hz]
    rw [behindBytes.go]
  simp only [front, spelled, List.foldl_cons, List.foldl_nil, hw.1, hx.1, hy.1, hz.1]
  exact fun d there => ⟨behindBytes c 4, rfl, behind⟩

/-- The characters with an escape of one letter. -/
def shortEscapes : List (Char × Char) :=
  [('"', '"'), ('\\', '\\'), ('b', Char.ofNat 8), ('f', Char.ofNat 12), ('n', '\n'),
   ('r', '\r'), ('t', '\t')]

/-- A character is written as itself, or by a letter, or by its code. -/
theorem escape_cases (c : Char) :
    (∃ letter, (letter, c) ∈ shortEscapes ∧ (Json.escape c).toList = ['\\', letter]) ∨
      (∃ w x y z, (∀ u ∈ [w, x, y, z], IsPlain u) ∧ hex4? [w, x, y, z] = some c.toNat ∧
        c.toNat < 32 ∧ (Json.escape c).toList = ['\\', 'u', w, x, y, z]) ∨
      (c ≠ '"' ∧ c ≠ '\\' ∧ 32 ≤ c.toNat ∧ (Json.escape c).toList = [c]) := by
  -- the control characters one by one
  have controls : ∀ n < 32,
      (∃ e ∈ shortEscapes, e.2 = Char.ofNat n ∧
        (Json.escape (Char.ofNat n)).toList = ['\\', e.1]) ∨
      ((Json.escape (Char.ofNat n)).toList.length = 6 ∧
        (Json.escape (Char.ofNat n)).toList.take 2 = ['\\', 'u'] ∧
        ((Json.escape (Char.ofNat n)).toList.drop 2).all (fun u => decide (IsPlain u)) = true ∧
        hex4? ((Json.escape (Char.ofNat n)).toList.drop 2) = some n) := by
    decide +kernel
  by_cases control : c.toNat < 32
  · have same : Char.ofNat c.toNat = c := Char.ofNat_toNat c
    have h := controls c.toNat control
    rw [same] at h
    rcases h with ⟨⟨letter, d⟩, mem, rfl, written⟩ | ⟨six, front, plain, spelled⟩
    · exact .inl ⟨letter, mem, written⟩
    · refine .inr (.inl ?_)
      generalize (Json.escape c).toList = t at six front plain spelled
      match t, six with
      | [a, b, w, x, y, z], _ =>
        cases front
        exact ⟨w, x, y, z, by simpa using plain, spelled, control, rfl⟩
  · by_cases quote : c = '"'
    · subst quote
      exact .inl ⟨'"', by decide, by decide +kernel⟩
    by_cases backslash : c = '\\'
    · subst backslash
      exact .inl ⟨'\\', by decide, by decide +kernel⟩
    refine .inr (.inr ⟨quote, backslash, by omega, ?_⟩)
    have low : ∀ d : Char, d.toNat < 32 → c ≠ d := by
      rintro d h rfl
      exact control h
    have written : Json.escape c = c.toString := by
      unfold Json.escape
      rw [if_neg quote, if_neg backslash, if_neg (by omega), if_neg (by omega),
        if_neg (low _ (by decide)), if_neg (low _ (by decide)), if_neg (low _ (by decide)),
        if_neg (by omega), if_neg (by omega)]
    rw [written, Char.toString_eq_singleton, String.toList_singleton]

/-- An escape of one letter is read as its character. -/
theorem takes_shortEscape {letter : Char} (mem : (letter, c) ∈ shortEscapes) :
    escaped.Takes [letter] c rest := by
  refine Takes.look takes_peek ?_
  simp only [shortEscapes, List.mem_cons, Prod.mk.injEq, List.not_mem_nil, or_false] at mem
  rcases mem with ⟨rfl, rfl⟩ | ⟨rfl, rfl⟩ | ⟨rfl, rfl⟩ | ⟨rfl, rfl⟩ | ⟨rfl, rfl⟩ | ⟨rfl, rfl⟩ |
    ⟨rfl, rfl⟩ <;> exact Takes.step (takes_skip _) (takes_pure _)

/-- The code of a control character is read as the character. -/
theorem takes_codeEscape {w x y z : Char} (plain : ∀ u ∈ [w, x, y, z], IsPlain u)
    (spelled : hex4? [w, x, y, z] = some c.toNat) (low : c.toNat < 32) :
    escaped.Takes ['u', w, x, y, z] c rest := by
  refine Takes.look takes_peek ?_
  show Takes (skip >>= fun _ => unicodeEscape) ('u' :: [w, x, y, z]) c _
  refine Takes.step (takes_skip _) ?_
  have code : hex4.Takes [w, x, y, z] c.toNat rest := takes_hex4 plain spelled
  have same : Char.ofNat c.toNat = c := Char.ofNat_toNat c
  unfold unicodeEscape
  refine Takes.bind (u := []) code ?_
  -- it is no half of a pair
  have notLow : ¬(0xDC00 ≤ c.toNat && c.toNat ≤ 0xDFFF) = true := by
    simp only [Bool.and_eq_true, decide_eq_true_eq]
    omega
  have notHigh : (decide (c.toNat < 0xD800) || decide (0xDBFF < c.toNat)) = true := by
    simp only [Bool.or_eq_true, decide_eq_true_eq]
    omega
  simp only [notLow, notHigh, if_true, same]
  exact takes_pure c

/-- What `escape` writes for a character is read as the character. -/
theorem takes_escape {tail : List Char}
    (later : (stringTail fuel (c :: acc)).Takes text tail rest) :
    (stringTail (fuel + 1) acc).Takes ((Json.escape c).toList ++ text) tail rest := by
  rcases escape_cases c with ⟨letter, mem, written⟩ | ⟨w, x, y, z, plain, spelled, low, written⟩ |
    ⟨quote, backslash, high, written⟩
  · -- a letter
    rw [written, stringTail]
    refine Takes.look takes_peek ?_
    show Takes (skip >>= fun _ => escaped >>= fun y => stringTail fuel (y :: acc))
      ('\\' :: ([letter] ++ text)) _ _
    exact Takes.step (takes_skip _) (Takes.bind (takes_shortEscape mem) later)
  · -- a code
    rw [written, stringTail]
    refine Takes.look takes_peek ?_
    show Takes (skip >>= fun _ => escaped >>= fun y => stringTail fuel (y :: acc))
      ('\\' :: (['u', w, x, y, z] ++ text)) _ _
    exact Takes.step (takes_skip _) (Takes.bind (takes_codeEscape plain spelled low) later)
  · -- the character itself
    rw [written, stringTail]
    refine Takes.look takes_peek ?_
    simp only [List.cons_append, List.nil_append, List.head?_cons]
    rw [if_neg (by omega)]
    exact Takes.step (takes_skip _) later

/-- Every character is written with at least one. -/
theorem escape_length_pos (c : Char) : 0 < (Json.escape c).toList.length := by
  rcases escape_cases c with ⟨_, -, written⟩ | ⟨_, _, _, _, -, -, -, written⟩ | ⟨-, -, -, written⟩
    <;> rw [written] <;> exact Nat.zero_lt_succ _

/-- The characters of a string come out last first. -/
theorem takes_stringTail (cs : List Char) (enough : cs.length < fuel) :
    (stringTail fuel acc).Takes (cs.flatMap (fun c => (Json.escape c).toList) ++ ['"'])
      (cs.reverse ++ acc) rest := by
  induction cs generalizing fuel acc with
  | nil =>
    obtain ⟨fuel, rfl⟩ : ∃ n, fuel = n + 1 := ⟨fuel - 1, by simp at enough; omega⟩
    rw [stringTail]
    exact Takes.look takes_peek (Takes.step (takes_skip _) (takes_pure acc))
  | cons c cs ih =>
    obtain ⟨fuel, rfl⟩ : ∃ n, fuel = n + 1 := ⟨fuel - 1, by simp at enough; omega⟩
    rw [List.flatMap_cons, List.append_assoc, List.reverse_cons, List.append_assoc]
    exact takes_escape (ih (by simpa using enough))

theorem printText_toList (s : String) :
    (Json.printText s).toList =
      '"' :: (s.toList.flatMap (fun c => (Json.escape c).toList) ++ ['"']) := by
  simp [Json.printText, String.toList_join, List.flatMap_map]

/-- What is written for a string is read as the string. -/
theorem takes_string (s : String) : string.Takes (Json.printText s).toList s rest := by
  rw [printText_toList]
  refine Takes.step (takes_skip _) (takes_here fun c start => ?_)
  have longer : s.toList.length ≤ (s.toList.flatMap fun c => (Json.escape c).toList).length := by
    induction s.toList with
    | nil => exact Nat.le_refl _
    | cons c cs ih =>
      have := escape_length_pos c
      rw [List.flatMap_cons, List.length_append, List.length_cons]
      omega
  have enough : s.toList.length < c.rest.length + 1 := by
    rw [start]
    simp only [List.length_append, List.length_cons]
    omega
  have run : (stringTail (c.rest.length + 1) []).Takes _ _ rest := takes_stringTail s.toList enough
  have read := Takes.map run fun chars => String.ofList chars.reverse
  simpa using read

end Strings

/-! ## §5. Digits. -/

/-- What follows a number: the end, or something that cannot belong to it. -/
def Ends (rest : List Char) : Prop :=
  ∀ x ∈ rest.head?, x ∈ [',', ']', '\x7d']

theorem ends_nil : Ends [] := by simp [Ends]

theorem ends_comma : Ends (',' :: rest) := by simp [Ends]

theorem ends_list : Ends (']' :: rest) := by simp [Ends]

theorem ends_object : Ends ('\x7d' :: rest) := by simp [Ends]

theorem cases_of_ends (ends : Ends rest) :
    rest = [] ∨ ∃ more, rest = ',' :: more ∨ rest = ']' :: more ∨ rest = '\x7d' :: more := by
  cases rest with
  | nil => exact .inl rfl
  | cons x more =>
    have follows := ends x (by simp)
    simp only [List.mem_cons, List.not_mem_nil, or_false] at follows
    refine .inr ⟨more, ?_⟩
    rcases follows with rfl | rfl | rfl <;> simp

/-- A run of digits is read as its number, up to a character that is no digit. -/
theorem takes_digits {ds : List Char} (all : ∀ d ∈ ds, d.isDigit = true)
    (stop : ∀ x ∈ rest.head?, x.isDigit = false) (value count : Nat) :
    (digits value count).Takes ds (Nat.ofDigitChars 10 ds value, count + ds.length) rest := by
  have run : ∀ (ds : List Char) (column value count line : Nat), (∀ d ∈ ds, d.isDigit = true) →
      ∃ d : Cursor, digits.go (ds ++ rest) column value count line =
        ((Nat.ofDigitChars 10 ds value, count + ds.length), d) ∧ d.rest = rest := by
    intro ds
    induction ds with
    | nil =>
      intro column value count line _
      cases rest with
      | nil => exact ⟨_, rfl, rfl⟩
      | cons x more =>
        have : x.isDigit = false := stop x (by simp)
        refine ⟨⟨x :: more, line, column⟩, ?_, rfl⟩
        simp [digits.go, this]
    | cons d ds ih =>
      intro column value count line all
      obtain ⟨c, more, there⟩ := ih (column + 1) (value * 10 + (d.toNat - 48)) (count + 1) line
        fun e mem => all e (List.mem_cons_of_mem _ mem)
      refine ⟨c, ?_, there⟩
      rw [List.cons_append, digits.go, if_pos (all d List.mem_cons_self), more,
        Nat.ofDigitChars_cons, List.length_cons, Nat.mul_comm value, Nat.add_right_comm count,
        Nat.add_assoc count]
      rfl
  intro c start
  obtain ⟨d, more, there⟩ := run ds c.column value count c.line all
  refine ⟨d, ?_, there⟩
  show Except.ok (digits.go c.rest c.column value count c.line) = _
  rw [start, more]

/-! ## §6. No fuel. -/

theorem shaped_zero {levels : Nat} {shape : Shape} :
    shaped 0 levels shape = failNext (.malformed .endInValue) := by
  rw [shaped]

end Scan

end LiteratureReview
