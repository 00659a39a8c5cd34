/-
  LiteratureReview.Proofs.Json.Sound
  ──────────────────────────────────
  What a text can hold.

  `Scan.Yields s P` says that whatever the scan `s` gives has the property
  `P`, wherever it starts.  It composes along `>>=`, and a scan that fails
  yields anything.  So the numbers that are read are integers of sixty-four
  bits or finite doubles, and values nest less deep than the levels that were
  left (`Json.Fits`).

    • `yields_number`, `yields_value` — numbers and values,
    • `yieldsShaped` — values of a shape, and their parts,
    • `fits_of_readText`, `isOrdered_of_parse` — what a text is decoded from.
-/
import LiteratureReview.Json.Shape
import LiteratureReview.Proofs.Json.Numerals
import LiteratureReview.Proofs.Json.Ordering

namespace LiteratureReview

open Json Decimal

/-- A value with proper numbers that nests less deep than some levels. -/
structure Json.Fits (levels : Nat) (v : Json) : Prop where
  numbers : v.HasProperNumbers
  shallow : v.depth < levels

namespace Scan

variable {α β : Type} {P : α → Prop} {Q : β → Prop} {levels fuel : Nat}

/-- Whatever the scan gives has the property. -/
def Yields (s : Scan α) (P : α → Prop) : Prop :=
  ∀ c a d, s c = .ok (a, d) → P a

/-! ## §1. Composition. -/

theorem yields_pure {a : α} (h : P a) : Yields (pure a) P := by
  rintro c b d ⟨⟩
  exact h

theorem yields_failHere {cause : DecodeError} : Yields (failHere cause) P := nofun

theorem yields_failNext {cause : DecodeError} : Yields (failNext cause) P := nofun

theorem yields_failBehind {cause : DecodeError} : Yields (failBehind cause) P := nofun

theorem yields_failOpen {cause : DecodeError} : Yields (failOpen cause) P := nofun

/-- What the second scan yields after anything the first one may give. -/
theorem Yields.bind {s : Scan α} {f : α → Scan β} (first : Yields s P)
    (second : ∀ a, P a → Yields (f a) Q) : Yields (s >>= f) Q := by
  intro c b e run
  replace run : (s c >>= fun r => f r.1 r.2) = .ok (b, e) := run
  cases given : s c with
  | error fault =>
    rw [given] at run
    cases run
  | ok r =>
    obtain ⟨a, d⟩ := r
    rw [given] at run
    exact second a (first c a d given) d b e run

/-- A scan whose result does not matter. -/
theorem yields_then {s : Scan α} {f : α → Scan β} (second : ∀ a, Yields (f a) Q) :
    Yields (s >>= f) Q :=
  Yields.bind (P := fun _ => True) (fun _ _ _ _ => trivial) fun a _ => second a

theorem yields_closedBy {close : Scan Unit} {inside : Scan α} (h : Yields inside P) :
    Yields (closedBy close inside) P := by
  intro c a e run
  unfold closedBy at run
  split at run
  next b d given =>
    split at run
    · cases run
      exact h c a d given
    · cases run
  next => split at run <;> cases run

/-- Nothing comes after a scan that fails. -/
theorem yields_stop {s : Scan α} {f : α → Scan β} (fails : Yields s fun _ => False) :
    Yields (s >>= f) Q :=
  fails.bind fun _ absurd => absurd.elim

/-- A list or an object is entered only when there are levels left. -/
theorem yields_enter {inside : Nat → Scan α} (h : 1 < levels → Yields (inside (levels - 1)) P) :
    Yields (enter levels inside) P := by
  unfold enter
  split
  · exact yields_stop yields_failNext
  next more => exact yields_then fun _ => h (by omega)

/-! ## §2. Numbers. -/

theorem yields_doubleOf {negative : Bool} {digits : Nat} {power : Int} :
    Yields (doubleOf negative digits power) (·.isProper = true) := by
  unfold doubleOf
  split
  next x rounded => exact yields_pure (Double.isFinite_of_ofDecimal rounded)
  next => exact yields_failHere

/-- An integer is kept as one when it has a form of sixty-four bits. -/
theorem yields_afterWhole {negative : Bool} {whole : Nat} :
    Yields (afterWhole negative whole) (·.isProper = true) := by
  have low : (twoTo 63 : Int) = 9223372036854775808 := by decide
  have high : (twoTo 64 : Int) = 18446744073709551616 := by decide
  unfold afterWhole
  refine yields_then fun next => ?_
  split
  · -- digits behind a point make a double
    refine yields_then fun _ => yields_then fun fraction => ?_
    dsimp only
    split
    · refine yields_then fun after => ?_
      split
      · exact yields_stop yields_failNext
      · exact yields_stop yields_failHere
    · exact yields_then fun _ => yields_doubleOf
  · refine yields_then fun power => ?_
    split
    · exact yields_doubleOf
    · -- without point and exponent it is an integer, as far as sixty-four bits go
      split
      · split
        · exact yields_doubleOf
        next small =>
          simp only [Bool.or_eq_true, decide_eq_true_eq, not_or, not_lt] at small
          refine yields_pure ?_
          have : (whole : Int) ≤ twoTo 63 := Int.ofNat_le.2 small.2
          simp only [Number.isProper, low, high, Bool.and_eq_true, decide_eq_true_eq] at this ⊢
          omega
      · split
        next small =>
          refine yields_pure ?_
          have : (whole : Int) < twoTo 64 := Int.ofNat_lt.2 small
          simp only [Number.isProper, low, high, Bool.and_eq_true, decide_eq_true_eq] at this ⊢
          omega
        · exact yields_doubleOf

/-- **Every number that is read is proper.** -/
theorem yields_number : Yields number (·.isProper = true) := by
  have unsigned : ∀ negative, Yields (unsigned negative) (·.isProper = true) := by
    intro negative
    refine yields_then fun next => ?_
    split
    · exact yields_failHere
    next x =>
      dsimp only
      split
      · exact yields_stop yields_failBehind
      · split
        · -- behind a leading zero, a digit is refused
          refine yields_then fun _ => yields_then fun digit => ?_
          split
          · exact yields_stop yields_failNext
          · exact yields_then fun _ => yields_afterWhole
        · exact yields_then fun _ => yields_afterWhole
  unfold number
  refine yields_then fun next => ?_
  split
  · exact yields_then fun _ => unsigned true
  · exact unsigned false

/-! ## §3. Values. -/

theorem fits_flat {v : Json} (pos : 0 < levels) (numbers : v.HasProperNumbers)
    (flat : v.depth = 0) : v.Fits levels :=
  ⟨numbers, by omega⟩

theorem fits_list {vs : List Json} (more : 1 < levels) (each : ∀ v ∈ vs, v.Fits (levels - 1)) :
    (Json.list vs).Fits levels := by
  refine ⟨every_list_iff.2 fun v mem => (each v mem).numbers, ?_⟩
  have inside : depthItems vs ≤ levels - 2 := depthItems_le fun v mem => by
    have := (each v mem).shallow
    omega
  rw [depth]
  omega

theorem fits_object {ms : List (String × Json)} (more : 1 < levels)
    (each : ∀ m ∈ ms, m.2.Fits (levels - 1)) : (Json.object ms).Fits levels := by
  refine ⟨every_object_iff.2 ⟨rfl, fun m mem => (each m mem).numbers⟩, ?_⟩
  have inside : depthMembers ms ≤ levels - 2 := depthMembers_le fun m mem => by
    have := (each m mem).shallow
    omega
  rw [depth]
  omega

/-- One more element in front. -/
theorem yields_cons {v : α} {rest : Scan (List α)} (first : P v)
    (others : Yields rest fun vs => ∀ w ∈ vs, P w) :
    Yields (do return v :: (← rest)) fun vs => ∀ w ∈ vs, P w :=
  others.bind fun _ all => yields_pure (List.forall_mem_cons.2 ⟨first, all⟩)

theorem yields_nil : Yields (pure []) fun vs : List α => ∀ w ∈ vs, P w :=
  yields_pure fun _ mem => absurd mem List.not_mem_nil

/-- What is known of values, elements and members that are read with some fuel. -/
structure YieldsFitting (fuel : Nat) : Prop where
  value : ∀ levels, 0 < levels → Yields (value fuel levels) (Fits levels)
  items : ∀ levels first, 0 < levels →
    Yields (items fuel levels first) fun vs => ∀ v ∈ vs, v.Fits levels
  members : ∀ levels first, 0 < levels →
    Yields (members fuel levels first) fun ms => ∀ m ∈ ms, m.2.Fits levels

theorem yieldsFitting : YieldsFitting fuel := by
  -- all three at once, since values hold lists and objects and these hold values
  induction fuel with
  | zero => exact ⟨fun _ _ => nofun, fun _ _ _ => nofun, fun _ _ _ => nofun⟩
  | succ fuel ih =>
    refine ⟨fun levels pos => ?_, fun levels first pos => ?_, fun levels first pos => ?_⟩
    · unfold value
      refine yields_then fun next => ?_
      split
      · exact yields_failNext
      · exact yields_then fun _ => yields_then fun _ => yields_pure (fits_flat pos rfl rfl)
      · exact yields_then fun _ => yields_then fun _ => yields_pure (fits_flat pos rfl rfl)
      · exact yields_then fun _ => yields_then fun _ => yields_pure (fits_flat pos rfl rfl)
      · exact yields_then fun _ => yields_pure (fits_flat pos rfl rfl)
      · refine yields_enter fun more => yields_closedBy ?_
        exact (ih.items _ true (by omega)).bind fun _ all => yields_pure (fits_list more all)
      · refine yields_enter fun more => yields_closedBy ?_
        exact (ih.members _ true (by omega)).bind fun _ all => yields_pure (fits_object more all)
      · split
        · exact yields_number.bind fun _ proper => yields_pure (fits_flat pos proper rfl)
        · exact yields_failNext
    · unfold items
      refine yields_then fun more => ?_
      split
      · exact (ih.value levels pos).bind fun _ fits => yields_cons fits (ih.items levels false pos)
      · exact yields_nil
    · unfold members
      refine yields_then fun more => ?_
      split
      · refine yields_then fun key => yields_then fun _ => ?_
        exact (ih.value levels pos).bind fun v fits =>
          yields_cons (P := fun m : String × Json => m.2.Fits levels) (v := (key, v)) fits
            (ih.members levels false pos)
      · exact yields_nil

/-- **Every value that is read has proper numbers, and nests less deep than the levels that
were left.** -/
theorem yields_value (pos : 0 < levels) : Yields (value fuel levels) (Fits levels) :=
  yieldsFitting.value levels pos

/-! ## §4. Values of a shape. -/

theorem yields_refuseNext {expected : String} : Yields (refuseNext expected) P := by
  unfold refuseNext
  refine yields_then fun next => ?_
  split
  · exact yields_then fun _ => yields_then fun _ => yields_failHere
  · exact yields_then fun _ => yields_then fun _ => yields_failHere
  · exact yields_then fun _ => yields_then fun _ => yields_failHere
  · exact yields_then fun _ => yields_failHere
  · exact yields_failHere
  · exact yields_failHere
  · split
    · exact yields_then fun _ => yields_failHere
    · exact yields_failNext
  · exact yields_failNext

theorem yields_boolValue (pos : 0 < levels) : Yields boolValue (Fits levels) := by
  unfold boolValue
  refine yields_then fun next => ?_
  split
  · exact yields_then fun _ => yields_then fun _ => yields_pure (fits_flat pos rfl rfl)
  · exact yields_then fun _ => yields_then fun _ => yields_pure (fits_flat pos rfl rfl)
  · exact yields_refuseNext

theorem yields_numberValue {expected : String} {check : Number → Except DecodeError Unit}
    (pos : 0 < levels) : Yields (numberValue expected check) (Fits levels) := by
  unfold numberValue
  refine yields_then fun next => ?_
  split
  · refine yields_number.bind fun n proper => ?_
    exact yields_then fun _ => yields_pure (fits_flat pos proper rfl)
  · exact yields_refuseNext

theorem yields_choiceValue {names : List String} (pos : 0 < levels) :
    Yields (choiceValue names levels) (Fits levels) := by
  unfold choiceValue
  refine yields_then fun next => ?_
  split
  · exact yields_then fun _ => yields_pure (fits_flat pos rfl rfl)
  · refine yields_enter fun more => yields_then fun name => yields_then fun _ => ?_
    refine yields_then fun contents => ?_
    dsimp only
    split
    case' h_1 => refine yields_then fun _ => yields_then fun last => ?_
    case' h_2 => refine yields_then fun _ => yields_then fun _ => yields_then fun last => ?_
    case' h_3 => refine yields_then fun _ => yields_then fun last => ?_
    -- whatever stands under the name, the name is what is given
    all_goals split <;> exact yields_then fun _ => yields_pure (fits_flat pos rfl rfl)
  · exact yields_failNext

theorem yields_unionMembers {u : UnionType} {first tagged : Bool} (pos : 0 < levels) :
    Yields (unionMembers u levels fuel first tagged) fun ms => ∀ m ∈ ms, m.2.Fits levels := by
  induction fuel generalizing first tagged with
  | zero => nofun
  | succ fuel ih =>
    unfold unionMembers
    refine yields_then fun more => ?_
    split
    · refine yields_then fun key => ?_
      split
      · -- the tag is read as a name
        have tag : Yields (do
            colon
            let name ← variantName u.variants
            return (key, .text name) :: (← unionMembers u levels fuel false true))
            fun ms => ∀ m ∈ ms, m.2.Fits levels :=
          yields_then fun _ => yields_then fun name =>
            yields_cons (P := fun m : String × Json => m.2.Fits levels) (v := (key, .text name))
              (fits_flat pos rfl rfl) ih
        dsimp only
        split
        · exact yields_stop yields_failOpen
        · exact tag
      · refine yields_then fun _ => ?_
        exact (yields_value pos).bind fun v fits =>
          yields_cons (P := fun m : String × Json => m.2.Fits levels) (v := (key, v)) fits ih
    · split
      · exact yields_nil
      · exact yields_failOpen

theorem yields_unionValue {u : UnionType} :
    Yields (unionValue u fuel levels) (Fits levels) := by
  unfold unionValue
  refine yields_then fun next => ?_
  split
  · refine yields_enter fun more => yields_closedBy ?_
    have items : Yields (unionItems u fuel (levels - 1)) fun vs =>
        ∀ v ∈ vs, v.Fits (levels - 1) := by
      unfold unionItems
      refine yields_then fun given => ?_
      split
      · refine yields_then fun name => yields_cons (fits_flat (by omega) rfl rfl) ?_
        exact yieldsFitting.items _ false (by omega)
      · exact yields_failOpen
    exact items.bind fun _ all => yields_pure (fits_list more all)
  · refine yields_enter fun more => yields_closedBy ?_
    exact (yields_unionMembers (by omega)).bind fun _ all => yields_pure (fits_object more all)
  · exact yields_then fun _ => yields_failHere

/-- What is known of the parts of a shape that are read with some fuel. -/
structure YieldsShaped (fuel : Nat) : Prop where
  value : ∀ levels shape, 0 < levels → Yields (shaped fuel levels shape) (Fits levels)
  items : ∀ levels item first, 0 < levels →
    Yields (shapedItems fuel levels item first) fun vs => ∀ v ∈ vs, v.Fits levels
  fields : ∀ levels type fields i, 0 < levels →
    Yields (shapedFields fuel levels type fields i) fun vs => ∀ v ∈ vs, v.Fits levels
  members : ∀ levels fields first seen, 0 < levels →
    Yields (shapedMembers fuel levels fields first seen) fun ms => ∀ m ∈ ms, m.2.Fits levels

theorem yieldsShaped_zero : YieldsShaped 0 where
  value _ _ _ := by
    rw [shaped_zero]
    exact yields_failNext
  items _ _ _ _ := (shapedItems.eq_1 ..).symm ▸ yields_failNext
  fields _ _ _ _ _ := (shapedFields.eq_1 ..).symm ▸ yields_failNext
  members _ _ _ _ _ := (shapedMembers.eq_1 ..).symm ▸ yields_failNext

/-- Only lists, objects and records go one level down, and a shape within `nullable` is
read with the fuel that is left. -/
theorem YieldsShaped.shaped_succ (ih : YieldsShaped fuel) {shape : Shape} (pos : 0 < levels) :
    Yields (shaped (fuel + 1) levels shape) (Fits levels) := by
  unfold shaped
  split
  · exact yields_value pos
  · exact yields_then fun _ => yields_then fun _ => yields_pure (fits_flat pos rfl rfl)
  · exact yields_then fun _ => yields_then fun _ => yields_pure (fits_flat pos rfl rfl)
  · exact yields_boolValue pos
  · exact yields_numberValue pos
  · exact yields_choiceValue pos
  · refine yields_then fun next => ?_
    split
    · refine yields_enter fun more => yields_closedBy ?_
      exact (ih.items _ _ true (by omega)).bind fun _ all => yields_pure (fits_list more all)
    · exact yields_refuseNext
  next content =>
    refine yields_then fun next => ?_
    split
    · exact yields_then fun _ => yields_then fun _ => yields_pure (fits_flat pos rfl rfl)
    · exact ih.value levels content pos
  · -- a record may be written as a list of its values
    refine yields_then fun next => ?_
    split
    · refine yields_enter fun more => yields_closedBy ?_
      exact (ih.fields _ _ _ 0 (by omega)).bind fun _ all => yields_pure (fits_list more all)
    · refine yields_enter fun more => yields_closedBy ?_
      exact (ih.members _ _ true [] (by omega)).bind fun _ all => yields_pure (fits_object more all)
    · exact yields_refuseNext
  · exact yields_unionValue.bind fun v fits => yields_then fun _ => yields_pure fits

theorem YieldsShaped.shapedItems_succ (ih : YieldsShaped fuel) {item : Shape} {first : Bool}
    (pos : 0 < levels) :
    Yields (shapedItems (fuel + 1) levels item first) fun vs => ∀ v ∈ vs, v.Fits levels := by
  unfold shapedItems
  refine yields_then fun more => ?_
  split
  · exact (ih.value levels item pos).bind fun _ fits =>
      yields_cons fits (ih.items levels item false pos)
  · exact yields_nil

theorem YieldsShaped.shapedFields_succ (ih : YieldsShaped fuel) {type : RecordType}
    {fields : List (String × Bool × Shape)} {i : Nat} (pos : 0 < levels) :
    Yields (shapedFields (fuel + 1) levels type fields i) fun vs => ∀ v ∈ vs, v.Fits levels := by
  cases fields with
  | nil =>
    unfold shapedFields
    exact yields_nil
  | cons f rest =>
    obtain ⟨name, mayEnd, shape⟩ := f
    unfold shapedFields
    refine yields_then fun more => ?_
    split
    · exact (ih.value levels shape pos).bind fun _ fits =>
        yields_cons fits (ih.fields levels type rest (i + 1) pos)
    · -- the list ends in front of the field
      split
      · exact ih.fields levels type rest (i + 1) pos
      · exact yields_failOpen

theorem YieldsShaped.shapedMembers_succ (ih : YieldsShaped fuel)
    {fields : List (String × Bool × Shape)} {first : Bool} {seen : List String}
    (pos : 0 < levels) :
    Yields (shapedMembers (fuel + 1) levels fields first seen) fun ms =>
      ∀ m ∈ ms, m.2.Fits levels := by
  unfold shapedMembers
  refine yields_then fun more => ?_
  split
  · refine yields_then fun key => ?_
    split
    next shape declared =>
      have member : Yields (do
          colon
          let v ← shaped fuel levels shape
          return (key, v) :: (← shapedMembers fuel levels fields false (key :: seen)))
          fun ms => ∀ m ∈ ms, m.2.Fits levels :=
        yields_then fun _ => (ih.value levels shape pos).bind fun v fits =>
          yields_cons (P := fun m : String × Json => m.2.Fits levels) (v := (key, v)) fits
            (ih.members levels fields false (key :: seen) pos)
      -- a key that has been seen is refused before its value is read
      dsimp only
      split
      · exact yields_stop yields_failOpen
      · exact member
    · exact yields_then fun _ => yields_then fun _ => ih.members levels fields false seen pos
  · split
    · exact yields_failOpen
    · exact yields_nil

theorem yieldsShaped : YieldsShaped fuel := by
  induction fuel with
  | zero => exact yieldsShaped_zero
  | succ fuel ih =>
    exact ⟨fun _ _ => ih.shaped_succ, fun _ _ _ => ih.shapedItems_succ,
      fun _ _ _ _ => ih.shapedFields_succ, fun _ _ _ _ => ih.shapedMembers_succ⟩

/-! ## §5. Whole texts. -/

/-- What a scan yields, it yields of a whole text. -/
theorem Yields.run {inside : Nat → Scan α} (h : ∀ fuel, Yields (inside fuel) P) {s : String}
    {a : α} (read : Scan.run inside s = .ok a) : P a := by
  have whole : Yields (do
      let a ← inside (fuelFor (Cursor.ofString s))
      endOfText
      return a) P :=
    (h _).bind fun a holds => yields_then fun _ => yields_pure holds
  unfold Scan.run at read
  dsimp only at read
  split at read
  next b d given =>
    cases read
    exact whole _ _ d given
  next => cases read

/-- **What a text of a shape is decoded from** has proper numbers and less than 128
levels. -/
theorem fits_of_readText {shape : Shape} {d : Decoder α} {s : String} {a : α}
    (h : readText shape d s = .ok a) : ∃ v : Json, v.Fits levelLimit ∧ d .free v = .ok a := by
  unfold readText at h
  cases held : Scan.run (fun fuel => shaped fuel levelLimit shape) s with
  | error fault =>
    rw [held] at h
    cases h
  | ok v =>
    rw [held] at h
    refine ⟨v, Yields.run (fun fuel => yieldsShaped.value levelLimit shape (by decide)) held, ?_⟩
    replace h : (d .free v).mapError _ = .ok a := h
    cases read : d .free v with
    | error cause =>
      rw [read] at h
      cases h
    | ok b =>
      rw [read] at h
      cases h
      rfl

end Scan

/-- **What a text holds** has its keys in order and less than 128 levels. -/
theorem Json.isOrdered_of_parse {s : String} {v : Json} (h : Json.parse s = .ok v) :
    v.IsOrdered ∧ v.depth < Scan.levelLimit := by
  unfold Json.parse at h
  cases read : Json.parseOrdered s with
  | error fault =>
    rw [read] at h
    cases h
  | ok w =>
    rw [read] at h
    cases h
    have fits : w.Fits Scan.levelLimit :=
      Scan.Yields.run (fun _ => Scan.yields_value (by decide)) read
    exact ⟨isOrdered_normalize fits.numbers, (depth_normalize_le w).trans_lt fits.shallow⟩

end LiteratureReview
