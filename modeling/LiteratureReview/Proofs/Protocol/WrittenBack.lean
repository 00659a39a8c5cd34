/-
  LiteratureReview.Proofs.Protocol.WrittenBack
  ────────────────────────────────────────────
  What is written of a protocol is the canonical form of the document it was
  read from.

  Decoding after encoding gives back every protocol; this is the other
  direction.  A decoder writes a value back at a slot (`WritesBack`) when
  whatever it reads is written as the canonical form of the value.  Scalars
  do, and so do lists and records of what does: a record is compared with
  the table of what is written of it, member by member (`Agrees`).

    • `writesBack_category` — categories, by induction on the levels,
    • `canon_of_decode` — documents.
-/
import LiteratureReview.Proofs.Json.Unordered
import LiteratureReview.Proofs.Protocol.Grammar
import LiteratureReview.Proofs.Protocol.Layout
import LiteratureReview.Proofs.Protocol.RoundTrip
import LiteratureReview.Proofs.Protocol.Typing

namespace LiteratureReview

open Json Grammar Layout

/-! ## §1. Sorted members. -/

/-- Members by ascending key are determined by what stands under the keys. -/
theorem Json.eq_of_lookup {xs ys : List (String × Json)}
    (hx : (xs.map (·.1)).Pairwise (· < ·)) (hy : (ys.map (·.1)).Pairwise (· < ·))
    (same : ∀ k, xs.lookup k = ys.lookup k) : xs = ys := by
  induction xs generalizing ys with
  | nil =>
    cases ys with
    | nil => rfl
    | cons m rest =>
      have there := same m.1
      rw [lookup_cons_ite, if_pos rfl] at there
      cases there
  | cons m rest ih =>
    obtain ⟨k, v⟩ := m
    rw [List.map_cons, List.pairwise_cons] at hx
    cases ys with
    | nil =>
      have there := same k
      rw [lookup_cons_ite, if_pos rfl] at there
      cases there
    | cons m' rest' =>
      obtain ⟨l, w⟩ := m'
      rw [List.map_cons, List.pairwise_cons] at hy
      have here := same k
      have there := same l
      simp only [lookup_cons_ite, if_true] at here there
      -- the least key of the one side is found on the other side, and cannot be greater there
      have first : k = l := by
        by_contra other
        rw [if_neg other] at here
        rw [if_neg (Ne.symm other)] at there
        have after : l < k := hy.1 k (List.mem_map_of_mem (mem_of_lookup here.symm))
        have before : k < l := hx.1 l (List.mem_map_of_mem (mem_of_lookup there))
        exact lt_asymm after before
      subst first
      obtain rfl : v = w := by simpa using here
      -- behind the first member its key is found on neither side
      rw [ih hx.2 hy.2 fun j => ?_]
      by_cases again : j = k
      · subst again
        have absent {zs : List (String × Json)} (least : ∀ l ∈ zs.map (·.1), j < l) :
            zs.lookup j = none :=
          lookup_eq_none_of_not_mem fun mem => lt_irrefl j (least j mem)
        rw [absent hx.1, absent hy.1]
      · have other := same j
        rwa [lookup_cons_ite, lookup_cons_ite, if_neg again, if_neg again] at other

/-! ## §2. Records, member by member. -/

/-- What a declared member holds is what is written for it, in its canonical form. -/
def Agrees (members : List (String × Json)) (f : Field) (entry : String × Option Json) : Prop :=
  f.key = entry.1 ∧ (members.lookup f.key).bind f.canon = entry.2.map Json.normalize

section Records

variable {members : List (String × Json)} {fields : List Field}
  {table : List (String × Option Json)}

theorem lookup_given_of_agrees (agree : List.Forall₂ (Agrees members) fields table)
    (distinct : (table.map (·.1)).Nodup) (key : String) :
    ((fieldOf fields key).bind fun f => (members.lookup key).bind f.canon) =
      ((given table).lookup key).map Json.normalize := by
  induction agree with
  | nil => rfl
  | @cons f entry fields table first later ih =>
    obtain ⟨name, written⟩ := entry
    obtain ⟨same, holds⟩ := first
    have declared : fieldOf (f :: fields) key =
        if f.key = key then some f else fieldOf fields key := by
      unfold fieldOf
      rw [List.find?_cons]
      by_cases here : f.key = key
      · rw [if_pos here, beq_iff_eq.2 here]
      · rw [if_neg here, beq_false_of_ne here]
    rw [declared]
    by_cases here : f.key = key
    · subst here
      have found : ((name, written) :: table).lookup f.key = some written := by
        rw [same, List.lookup_cons, beq_self_eq_true]
      rw [if_pos rfl, lookup_given distinct found]
      exact holds
    · rw [List.map_cons, List.nodup_cons] at distinct
      rw [if_neg here, ih distinct.2]
      -- an entry without a value writes nothing, and is passed over
      cases written with
      | none => rfl
      | some w =>
        show _ = (List.lookup key ((name, w) :: given table)).map Json.normalize
        have other : key ≠ name := fun e => here (same.trans e.symm)
        rw [lookup_cons_ite, if_neg other]

/-- **A record whose members agree with a table is what is written of the table**, in
its canonical form. -/
theorem canon_record {s : Section} (proper : (Json.object members).IsProper)
    (distinct : (table.map (·.1)).Nodup)
    (agree : List.Forall₂ (Agrees members) (s.fields (.object members)) table) :
    canon (.record s) (.object members) = (Json.object (given table)).normalize := by
  have plain := Slot.record_ne_payload s
  have ordered : (canon (.record s) (.object members)).IsOrdered := isOrdered_canon proper
  have found := get?_canon proper plain
  have shape : ∃ kept, canon (.record s) (.object members) = .object kept := by
    rw [canon, prune, if_neg plain]
    exact ⟨_, rfl⟩
  obtain ⟨kept, kept_eq⟩ := shape
  rw [kept_eq] at ordered found ⊢
  rw [Json.normalize]
  congr 1
  -- both sides are sorted, so it is enough to look up every key
  refine eq_of_lookup (isOrdered_object_iff.1 ordered).1 pairwise_normalizeMembers fun key => ?_
  rw [lookup_normalizeMembers (keys_given_nodup distinct),
    ← lookup_given_of_agrees agree distinct key]
  exact found key

/-- Members that are found under the same keys agree with the same table. -/
theorem agrees_of_same {contents : List (String × Json)}
    (same : ∀ f ∈ fields, contents.lookup f.key = members.lookup f.key)
    (agree : List.Forall₂ (Agrees contents) fields table) :
    List.Forall₂ (Agrees members) fields table := by
  induction agree with
  | nil => exact .nil
  | cons first later ih =>
    obtain ⟨own, others⟩ := List.forall_mem_cons.1 same
    refine .cons ⟨first.1, ?_⟩ (ih others)
    rw [← own]
    exact first.2

end Records

/-! ## §3. Decoders that write back. -/

/-- Whatever the decoder reads from a value of some form is written as the canonical
form of the value. -/
def WritesBack {α : Type} (P : Json → Prop) (d : Decoder α) (slot : Slot) (write : α → Json) :
    Prop :=
  ∀ ⦃at_ : Standing⦄ ⦃v : Json⦄ ⦃a : α⦄, v.IsProper → P v → d at_ v = .ok a →
    canon slot v = (write a).normalize

section Decoders

variable {α : Type} {P : Json → Prop} {d : Decoder α} {slot : Slot} {write : α → Json}

theorem writesBack_text : WritesBack P Decoder.text .scalar .text := by
  intro at_ v s _ _ read
  cases v with
  | text s' =>
    cases read
    rfl
  | _ => cases read

theorem writesBack_bool : WritesBack P Decoder.bool .scalar .bool := by
  intro at_ v b _ _ read
  cases v with
  | bool b' =>
    cases read
    rfl
  | _ => cases read

theorem writesBack_identifier : WritesBack P Identifier.decode .scalar Identifier.encode := by
  intro at_ v i _ _ read
  cases v with
  | text s =>
    replace read : ((Identifier.parse s).mapError DataError.message).mapError _ = .ok i := read
    unfold Identifier.parse at read
    split at read
    · cases read
      rfl
    · cases read
  | _ => cases read

theorem writesBack_nonEmptyText :
    WritesBack P NonEmptyText.decode .scalar NonEmptyText.encode := by
  intro at_ v t _ _ read
  cases v with
  | text s =>
    replace read : ((NonEmptyText.parse s).mapError DataError.message).mapError _ = .ok t := read
    unfold NonEmptyText.parse at read
    split at read
    · cases read
    · cases read
      rfl
  | _ => cases read

/-- An integer that is read is the one that is written. -/
theorem eq_of_integer {low high : Int} {expected : String} {at_ : Standing} {v : Json} {i : Int}
    (read : Decoder.integer low high expected at_ v = .ok i) :
    v = .number (.int i) ∧ low ≤ i ∧ i ≤ high := by
  cases v with
  | number n =>
    cases n with
    | int j =>
      simp only [Decoder.integer, Decoder.integerOf] at read
      split at read
      next inside =>
        cases read
        exact ⟨rfl, inside⟩
      next => cases read
    | float x => cases read
  | _ => cases read

theorem writesBack_u32 : WritesBack P Decoder.u32 .scalar Json.u32 := by
  intro at_ v n _ _ read
  obtain ⟨i, whole, rfl⟩ : ∃ i, Decoder.integer 0 (Decimal.twoTo 32 - 1 : Int) "u32" at_ v = .ok i ∧
      UInt32.ofNat i.toNat = n := by
    unfold Decoder.u32 at read
    cases whole : Decoder.integer 0 (Decimal.twoTo 32 - 1 : Int) "u32" at_ v with
    | error cause =>
      rw [whole] at read
      cases read
    | ok i =>
      rw [whole] at read
      cases read
      exact ⟨i, rfl, rfl⟩
  obtain ⟨rfl, low, high⟩ := eq_of_integer whole
  have limit : (Decimal.twoTo 32 : Int) = 4294967296 := by decide
  have small : i.toNat < 4294967296 := by omega
  have back : ((UInt32.ofNat i.toNat).toNat : Int) = i := by
    rw [UInt32.toNat_ofNat_of_lt' small]
    omega
  show Json.number (.int i) = .number (.int ((UInt32.ofNat i.toNat).toNat : Int))
  rw [back]

/-- Reading a signed integer stores it in sixty-four bits. -/
theorem writesBack_i64 : WritesBack P Decoder.i64 .scalar fun i => Json.i64 (Int64.ofInt i) := by
  intro at_ v i _ _ read
  obtain ⟨rfl, low, high⟩ := eq_of_integer read
  have limit : (Decimal.twoTo 63 : Int) = 9223372036854775808 := by decide
  have back : (Int64.ofInt i).toInt = i := by
    refine Int64.toInt_ofInt_of_le ?_ ?_
    · show -(2 : Int) ^ 63 ≤ i
      omega
    · show i < (2 : Int) ^ 63
      omega
  show Json.number (.int i) = .number (.int (Int64.ofInt i).toInt)
  rw [back]

theorem writesBack_double : WritesBack P Decoder.double .real Json.double := by
  intro at_ v x _ _ read
  cases v with
  | number n =>
    cases read
    rfl
  | _ => cases read

/-- A payload is stored without the order of its members. -/
theorem writesBack_any : WritesBack P Decoder.any .payload id := by
  intro at_ v a proper _ read
  cases read
  rw [canon_payload]
  exact (normalize_of_isOrdered (isOrdered_normalize proper.hasProperNumbers)).symm

theorem writesBack_choice {table : List (String × α)} {name : α → String} {names : List String}
    (named : ∀ e ∈ table, name e.2 = e.1) :
    WritesBack (IsOneOf names) (Decoder.choice table) .scalar fun a => .text (name a) := by
  intro at_ v a _ form read
  obtain ⟨s, -, rfl⟩ := form
  replace read : Decoder.ofName table s = .ok a := read
  unfold Decoder.ofName at read
  split at read
  next b found =>
    cases read
    show Json.text s = .text (name a)
    rw [named _ (mem_of_lookup found)]
  next => cases read

theorem writesBack_list {least : Nat} (item : WritesBack P d slot write) :
    WritesBack (IsListOf least P) (Decoder.list d) (.list slot) (listOf write) := by
  intro at_ v as proper form read
  obtain ⟨items, rfl, -, each⟩ := form
  rw [isProper_list_iff] at proper
  replace read : items.mapM (d at_) = .ok as := read
  rw [canon_listOf, listOf, Json.normalize, normalizeItems_eq_map, List.map_map]
  congr 1
  induction items generalizing as with
  | nil =>
    cases read
    rfl
  | cons v rest ih =>
    obtain ⟨a, others, first, later, rfl⟩ := mapM_cons_eq_ok_iff.1 read
    obtain ⟨here, below⟩ := List.forall_mem_cons.1 proper
    obtain ⟨form, forms⟩ := List.forall_mem_cons.1 each
    rw [List.map_cons, List.map_cons, ih below forms later]
    exact congrArg (· :: _) (item here form first)

end Decoders

section Members

variable {α : Type} {P : Json → Prop} {d : Decoder α} {slot : Slot} {write : α → Json}
  {members : List (String × Json)} {t : RecordType} {at_ : Standing} {name : String}

/-- A required member agrees with what is written of what was read. -/
theorem agrees_required (back : WritesBack P d slot write)
    (proper : (Json.object members).IsProper) (form : (Json.object members).Has name P) {a : α}
    (read : Fields.required ⟨t, at_, .named members⟩ name d = .done a) :
    Agrees members (need name slot) (name, some (write a)) := by
  refine ⟨rfl, ?_⟩
  obtain ⟨w, found, read⟩ := Fields.lookup_of_required (isProper_object_iff.1 proper).1 read
  obtain ⟨w', there, form⟩ := form
  obtain rfl : w = w' := Option.some.inj (found.symm.trans there)
  show (members.lookup name).bind _ = _
  rw [found]
  show some (canon slot w) = _
  rw [back (proper.get? there) form read]
  rfl

/-- An optional member is left out where nothing is written. -/
theorem agrees_optional (back : WritesBack P d slot write)
    (proper : (Json.object members).IsProper) (form : (Json.object members).May name P)
    {o : Option α} (read : Fields.optional ⟨t, at_, .named members⟩ name d = .done o) :
    Agrees members (may name slot) (name, o.map write) := by
  refine ⟨rfl, ?_⟩
  show (members.lookup name).bind (Field.canon (may name slot)) = _
  rcases (Fields.field_named_eq_done_iff (isProper_object_iff.1 proper).1).1 read with
    ⟨absent, none⟩ | ⟨w, found, read⟩
  · rw [absent, ← Option.some.inj none]
    rfl
  · rw [found]
    -- null is read as nothing, and nothing is written for it
    by_cases null : w = .null
    · subst null
      cases read
      rfl
    · rw [Decoder.nullable_of_ne null] at read
      obtain ⟨a, inner, rfl⟩ := Decoder.map_some_eq_ok_iff.1 read
      show Field.canon (may name slot) w = some (write a).normalize
      rw [Field.canon, Field.drops_of_ne null, if_neg Bool.false_ne_true,
        ← back (proper.get? found) ((form w found).resolve_left null) inner]
      rfl

end Members

/-! ## §4. Flat sections. -/

theorem writesBack_entry :
    WritesBack IsEntry NamedEntry.decode (.record .entry) NamedEntry.encode := by
  intro at_ v e proper form read
  obtain ⟨⟨members, rfl⟩, name⟩ := form
  replace read := Reading.toExcept_eq_ok_iff.1 read
  simp only [Reading.map_eq_done_iff] at read
  obtain ⟨_, first, rfl⟩ := read
  rw [NamedEntry.encode_eq]
  exact canon_record proper (NamedEntry.distinct _)
    (.cons (agrees_required writesBack_nonEmptyText proper name first) .nil)

theorem writesBack_entries {least : Nat} :
    WritesBack (IsListOf least IsEntry) (Decoder.list NamedEntry.decode) (.list (.record .entry))
      (listOf NamedEntry.encode) :=
  writesBack_list writesBack_entry

theorem writesBack_project :
    WritesBack IsProject ProjectSection.decode (.record .project) ProjectSection.encode := by
  intro at_ v p proper form read
  obtain ⟨⟨members, rfl⟩, shortName, name, description⟩ := form
  replace read := Reading.toExcept_eq_ok_iff.1 read
  simp only [Reading.seq_eq_done_iff, Reading.map_eq_done_iff] at read
  obtain ⟨_, ⟨_, ⟨_, first, rfl⟩, _, second, rfl⟩, _, third, rfl⟩ := read
  rw [ProjectSection.encode_eq]
  exact canon_record proper (ProjectSection.distinct _) <|
    .cons (agrees_required writesBack_identifier proper shortName first) <|
    .cons (agrees_required writesBack_nonEmptyText proper name second) <|
    .cons (agrees_optional writesBack_text proper description third) .nil

theorem writesBack_phase :
    WritesBack IsPhase PhaseSection.decode (.record .phase) PhaseSection.encode := by
  intro at_ v p proper form read
  obtain ⟨⟨members, rfl⟩, title, description, fields⟩ := form
  replace read := Reading.toExcept_eq_ok_iff.1 read
  simp only [Reading.seq_eq_done_iff, Reading.map_eq_done_iff] at read
  obtain ⟨_, ⟨_, ⟨_, first, rfl⟩, _, second, rfl⟩, _, third, rfl⟩ := read
  rw [PhaseSection.encode_eq]
  exact canon_record proper (PhaseSection.distinct _) <|
    .cons (agrees_required writesBack_nonEmptyText proper title first) <|
    .cons (agrees_optional writesBack_text proper description second) <|
    .cons (agrees_optional (writesBack_list writesBack_identifier) proper fields third) .nil

theorem writesBack_screening {rules : IntegerRules} :
    WritesBack (IsScreening rules) ScreeningSection.decode (.record .screening)
      ScreeningSection.encode := by
  intro at_ v s proper form read
  obtain ⟨⟨members, rfl⟩, reviewPerPaper, conflictType, conflictResolution, exclusionCriteria,
    sourcePapers, searchStrategy, validationPercentage, assignmentMode, phases⟩ := form
  replace read := Reading.toExcept_eq_ok_iff.1 read
  simp only [Reading.seq_eq_done_iff, Reading.map_eq_done_iff] at read
  obtain ⟨_, ⟨_, ⟨_, ⟨_, ⟨_, ⟨_, ⟨_, ⟨_, ⟨_, first, rfl⟩, _, second, rfl⟩, _, third, rfl⟩, _,
    fourth, rfl⟩, _, fifth, rfl⟩, _, sixth, rfl⟩, _, seventh, rfl⟩, _, eighth, rfl⟩, _, ninth,
    rfl⟩ := read
  rw [ScreeningSection.encode_eq]
  exact canon_record proper (ScreeningSection.distinct _) <|
    .cons (agrees_required writesBack_u32 proper reviewPerPaper first) <|
    .cons (agrees_required (writesBack_choice (by decide)) proper conflictType second) <|
    .cons (agrees_required (writesBack_choice (by decide)) proper conflictResolution third) <|
    .cons (agrees_required writesBack_entries proper exclusionCriteria fourth) <|
    .cons (agrees_optional writesBack_entries proper sourcePapers fifth) <|
    .cons (agrees_optional writesBack_entries proper searchStrategy sixth) <|
    .cons (agrees_optional writesBack_u32 proper validationPercentage seventh) <|
    .cons (agrees_optional (writesBack_choice (by decide)) proper assignmentMode eighth) <|
    .cons (agrees_optional (writesBack_list writesBack_phase) proper phases ninth) .nil

theorem writesBack_response :
    WritesBack IsResponse ResponseSection.decode (.record .response) ResponseSection.encode := by
  intro at_ v r proper form read
  obtain ⟨⟨members, rfl⟩, title, score⟩ := form
  replace read := Reading.toExcept_eq_ok_iff.1 read
  simp only [Reading.seq_eq_done_iff, Reading.map_eq_done_iff] at read
  obtain ⟨_, ⟨_, first, rfl⟩, _, second, rfl⟩ := read
  rw [ResponseSection.encode_eq]
  exact canon_record proper (ResponseSection.distinct _) <|
    .cons (agrees_required writesBack_nonEmptyText proper title first) <|
    .cons (agrees_required writesBack_double proper score second) .nil

theorem writesBack_quality :
    WritesBack IsQuality QualitySection.decode (.record .quality) QualitySection.encode := by
  intro at_ v q proper form read
  obtain ⟨⟨members, rfl⟩, questions, responses, minScore⟩ := form
  replace read := Reading.toExcept_eq_ok_iff.1 read
  simp only [Reading.seq_eq_done_iff, Reading.map_eq_done_iff] at read
  obtain ⟨_, ⟨_, ⟨_, first, rfl⟩, _, second, rfl⟩, _, third, rfl⟩ := read
  rw [QualitySection.encode_eq]
  exact canon_record proper (QualitySection.distinct _) <|
    .cons (agrees_required (writesBack_list writesBack_nonEmptyText) proper questions first) <|
    .cons (agrees_required (writesBack_list writesBack_response) proper responses second) <|
    .cons (agrees_required writesBack_double proper minScore third) .nil

/-! ## §5. Reports. -/

/-- A tag is written as the name of the variant it names. -/
theorem agrees_tag {members : List (String × Json)} {tag name : String}
    (found : (Json.object members).get? tag = some (.text name)) :
    Agrees members (need tag .scalar) (tag, some (.text name)) := by
  refine ⟨rfl, ?_⟩
  show (members.lookup tag).bind _ = _
  rw [show members.lookup tag = some (.text name) from found]
  rfl

theorem writesBack_charts :
    WritesBack (IsListOf 1 (IsOneOf ["bar", "pie", "line"]))
      (Decoder.list (Decoder.choice Chart.table)) (.list .scalar)
      (listOf fun c => .text (Chart.name c)) :=
  writesBack_list (writesBack_choice (by decide))

/-- Behind the tag of a report its members stay as they are. -/
theorem lookup_without_tag {members : List (String × Json)} (tag : String) {fields : List Field}
    (other : ∀ f ∈ fields, f.key ≠ tag) :
    ∀ f ∈ fields, (without tag members).lookup f.key = members.lookup f.key :=
  fun f mem => lookup_without (other f mem)

/-- What is written of a report without a reference. -/
theorem encode_simple {r : Report} (simple : r.reference = none) :
    r.encode = .object (given
      [("report_type", some (.text "Simple")), ("name", some (.text r.name)),
       ("title", r.title.map .text), ("value", some r.value.encode),
       ("chart", some (listOf (fun c => .text c.name) r.charts))]) := by
  have variant : r.variant = "Simple" := by
    unfold Report.variant
    rw [simple]
    rfl
  rw [Report.encode_eq, Report.tagged, Report.table, variant, simple]
  cases r.title <;> rfl

section Reports

variable {members : List (String × Json)} {at_ : Standing} {r : Report}

/-- A report is what is written of it when the members behind its tag are. -/
theorem canon_report {name : String} {own : List Field} {table : List (String × Option Json)}
    (proper : (Json.object members).IsProper)
    (tag : (Json.object members).get? "report_type" = some (.text name))
    (declared : reportFields (some name) = need "report_type" .scalar :: own)
    (apart : ∀ f ∈ own, f.key ≠ "report_type")
    (distinct : ((("report_type", some (.text name)) :: table).map (·.1)).Nodup)
    (others : List.Forall₂ (Agrees (without Report.union.tag members)) own table) :
    canon (.record .report) (.object members) =
      (Json.object (given (("report_type", some (.text name)) :: table))).normalize := by
  refine canon_record proper distinct ?_
  show List.Forall₂ _ (reportFields (tagText _ "report_type")) _
  rw [tagText_eq tag, declared]
  exact .cons (agrees_tag tag) (agrees_of_same (lookup_without_tag "report_type" apart) others)

theorem canon_simpleReport (proper : (Json.object members).IsProper)
    (tag : (Json.object members).get? "report_type" = some (.text "Simple"))
    (on : IsReportOn (.object members))
    (read : Report.decodeSimple .held (.object (without Report.union.tag members)) = .ok r) :
    canon (.record .report) (.object members) = r.encode.normalize := by
  obtain ⟨-, name, title, value, charts⟩ := on
  have rest : (Json.object (without Report.union.tag members)).IsProper := isProper_without proper
  replace read := Reading.toExcept_eq_ok_iff.1 read
  simp only [Reading.seq_eq_done_iff, Reading.map_eq_done_iff] at read
  obtain ⟨_, ⟨_, ⟨_, ⟨_, first, rfl⟩, _, second, rfl⟩, _, third, rfl⟩, _, fourth, rfl⟩ := read
  rw [encode_simple rfl]
  refine canon_report proper tag rfl (by decide)
    (by decide : ["report_type", "name", "title", "value", "chart"].Nodup) ?_
  exact .cons (agrees_required writesBack_text rest ((has_without (by decide)).2 name) first) <|
    .cons (agrees_optional writesBack_text rest ((may_without (by decide)).2 title) second) <|
    .cons (agrees_required writesBack_identifier rest ((has_without (by decide)).2 value) third) <|
    .cons (agrees_required writesBack_charts rest ((has_without (by decide)).2 charts) fourth) .nil

theorem canon_comparedReport (proper : (Json.object members).IsProper)
    (tag : (Json.object members).get? "report_type" = some (.text "Compared"))
    (on : IsReportOn (.object members)) (reference : (Json.object members).Has "reference" IsName)
    (read : Report.decodeCompared .held (.object (without Report.union.tag members)) = .ok r) :
    canon (.record .report) (.object members) = r.encode.normalize := by
  obtain ⟨-, name, title, value, charts⟩ := on
  have rest : (Json.object (without Report.union.tag members)).IsProper := isProper_without proper
  replace read := Reading.toExcept_eq_ok_iff.1 read
  simp only [Reading.seq_eq_done_iff, Reading.map_eq_done_iff] at read
  obtain ⟨_, ⟨_, ⟨_, ⟨_, ⟨_, first, rfl⟩, _, second, rfl⟩, _, third, rfl⟩, _, fourth, rfl⟩, _,
    fifth, rfl⟩ := read
  rw [Report.encode_eq]
  show _ = (Json.object (given (("report_type", some (.text "Compared")) :: _))).normalize
  refine canon_report proper tag rfl (by decide) (Report.tagged_distinct _) ?_
  exact .cons (agrees_required writesBack_text rest ((has_without (by decide)).2 name) first) <|
    .cons (agrees_optional writesBack_text rest ((may_without (by decide)).2 title) second) <|
    .cons (agrees_required writesBack_identifier rest ((has_without (by decide)).2 value) third) <|
    .cons (agrees_required writesBack_identifier rest ((has_without (by decide)).2 reference)
      fourth) <|
    .cons (agrees_required writesBack_charts rest ((has_without (by decide)).2 charts) fifth) .nil

end Reports

theorem writesBack_report :
    WritesBack IsReport Report.decode (.record .report) Report.encode := by
  intro at_ v r proper form read
  rcases form with ⟨tag, on⟩ | ⟨tag, on, reference⟩
  · obtain ⟨members, rfl⟩ := on.object
    rw [decodeReport_eq proper tag (by decide)] at read
    exact canon_simpleReport proper tag on read
  · obtain ⟨members, rfl⟩ := on.object
    rw [decodeReport_eq proper tag (by decide)] at read
    exact canon_comparedReport proper tag on reference read

/-! ## §6. Categories. -/

section Categories

variable {rules : IntegerRules} {members contents : List (String × Json)} {t : RecordType}
  {at_ : Standing} {child : Decoder Category}

/-- The members that belong to a kind agree with what is written of it. -/
structure AgreesKind (contents : List (String × Json)) (tags : List (String × Option Json))
    (own limits : List Field) (k : CategoryKind) : Prop where
  tags : Category.tagTable k = tags
  own : List.Forall₂ (Agrees contents) own (Category.kindTable k)
  limits : List.Forall₂ (Agrees contents) limits (Category.limitTable k)

theorem agreesKind_simple (u : Untagged (.object members) contents)
    (type : (Json.object members).Has "type" (IsOneOf scalarNames))
    (maxChar : (Json.object members).May "max_char" rules.amount)
    (pattern : (Json.object members).May "pattern" IsText) (k : CategoryKind)
    (read : CategoryKind.simple
        <$> Fields.required ⟨t, at_, .named contents⟩ "type" (Decoder.choice ScalarType.table)
        <*> Fields.optional ⟨t, at_, .named contents⟩ "max_char" Decoder.u32
        <*> Fields.optional ⟨t, at_, .named contents⟩ "pattern" Decoder.text
        <*> Fields.optional ⟨t, at_, .named contents⟩ "initial_value" Decoder.any = .done k) :
    AgreesKind contents [("category_type", some (.text "Simple"))] [need "type" .scalar]
      [may "max_char" .scalar, may "pattern" .scalar, may "initial_value" .payload] k := by
  simp only [Reading.seq_eq_done_iff, Reading.map_eq_done_iff] at read
  obtain ⟨_, ⟨_, ⟨_, ⟨_, first, rfl⟩, _, second, rfl⟩, _, third, rfl⟩, _, fourth, rfl⟩ := read
  refine ⟨rfl, .cons (agrees_required (writesBack_choice (by decide)) u.proper
    ((u.has_iff (by decide) (by decide)).2 type) first) .nil, ?_⟩
  exact .cons (agrees_optional writesBack_u32 u.proper
      ((u.may_iff (by decide) (by decide)).2 maxChar) second) <|
    .cons (agrees_optional writesBack_text u.proper
      ((u.may_iff (by decide) (by decide)).2 pattern) third) <|
    .cons (agrees_optional (P := fun _ => True) writesBack_any u.proper
      (fun _ _ => .inr trivial) fourth) .nil

theorem agreesKind_list (u : Untagged (.object members) contents)
    (values : (Json.object members).Has "values" (IsListOf 2 IsEntry)) (k : CategoryKind)
    (read : CategoryKind.list <$> Fields.required ⟨t, at_, .named contents⟩ "values"
      (Decoder.list NamedEntry.decode) = .done k) :
    AgreesKind contents [("category_type", some (.text "List"))]
      [need "values" (.list (.record .entry))] [] k := by
  obtain ⟨_, first, rfl⟩ := Reading.map_eq_done_iff.1 read
  exact ⟨rfl, .cons (agrees_required writesBack_entries u.proper
    ((u.has_iff (by decide) (by decide)).2 values) first) .nil, .nil⟩

theorem agreesKind_independent (u : Untagged (.object members) contents)
    (referenceName : (Json.object members).May "reference_name" IsText)
    (values : (Json.object members).Has "initial_values" (IsListOf 1 IsEntry)) (k : CategoryKind)
    (read : CategoryKind.independent
        <$> Fields.optional ⟨t, at_, .named contents⟩ "reference_name" Decoder.text
        <*> Fields.required ⟨t, at_, .named contents⟩ "initial_values"
          (Decoder.list NamedEntry.decode) = .done k) :
    AgreesKind contents
      [("category_type", some (.text "DynamicList")),
       ("dynamic_subtype", some (.text "Independent"))]
      [may "reference_name" .scalar, need "initial_values" (.list (.record .entry))] [] k := by
  simp only [Reading.seq_eq_done_iff, Reading.map_eq_done_iff] at read
  obtain ⟨_, ⟨_, first, rfl⟩, _, second, rfl⟩ := read
  refine ⟨rfl, ?_, .nil⟩
  exact .cons (agrees_optional writesBack_text u.proper
      ((u.may_iff (by decide) (by decide)).2 referenceName) first) <|
    .cons (agrees_required writesBack_entries u.proper
      ((u.has_iff (by decide) (by decide)).2 values) second) .nil

theorem agreesKind_dependent (u : Untagged (.object members) contents)
    (dependsOn : (Json.object members).Has "depends_on" IsName) (k : CategoryKind)
    (read : CategoryKind.dependent <$> Fields.required ⟨t, at_, .named contents⟩ "depends_on"
      Identifier.decode = .done k) :
    AgreesKind contents
      [("category_type", some (.text "DynamicList")),
       ("dynamic_subtype", some (.text "Dependent"))]
      [need "depends_on" .scalar] [] k := by
  obtain ⟨_, first, rfl⟩ := Reading.map_eq_done_iff.1 read
  exact ⟨rfl, .cons (agrees_required writesBack_identifier u.proper
    ((u.has_iff (by decide) (by decide)).2 dependsOn) first) .nil, .nil⟩

/-- The members that every category has agree with what is written of it when those of its
kind do. -/
theorem agrees_node (u : Untagged (.object members) contents)
    (form : IsCategory rules (.object members))
    (below : WritesBack (IsCategory rules) child (.record .category) Category.encode)
    {kind : Fields → Reading CategoryKind} {c : Category} {own limits : List Field}
    {tags : List (String × Option Json)}
    (read : Category.nodeOf child kind ⟨t, at_, .named contents⟩ = .done c)
    (kinds : ∀ k, kind ⟨t, at_, .named contents⟩ = .done k →
      AgreesKind contents tags own limits k) :
    ∃ h k children, c = .node h k children ∧ Category.tagTable k = tags ∧
      List.Forall₂ (Agrees contents) (node own limits) (Category.table h k children) := by
  obtain ⟨⟨-, name, title, mandatory, numberOfValues⟩, -, lists, each⟩ := form
  simp only [Category.nodeOf, Category.headOf, Reading.seq_eq_done_iff,
    Reading.map_eq_done_iff] at read
  obtain ⟨_, ⟨_, ⟨_, ⟨_, ⟨_, ⟨_, ⟨_, first, rfl⟩, _, second, rfl⟩, _, third, rfl⟩, _,
    ⟨count, fourth, rfl⟩, rfl⟩, rfl⟩, k, ofKind, rfl⟩, children, fifth, rfl⟩ := read
  obtain ⟨tagged, own, limits⟩ := kinds k ofKind
  refine ⟨_, k, children, rfl, tagged, ?_⟩
  -- the children are categories again
  have trees : (Json.object members).May "sub_categories" (IsListOf 1 (IsCategory rules)) := by
    intro w found
    refine (lists w found).imp_right ?_
    rintro ⟨items, rfl, some, -⟩
    exact ⟨items, rfl, some, fun c mem => each c ⟨items, found, mem⟩⟩
  have counted : Agrees contents (may "numberOfValues" .scalar)
      ("numberOfValues", (count.map Int64.ofInt).map Json.i64) := by
    rw [Option.map_map]
    exact agrees_optional writesBack_i64 u.proper
      ((u.may_iff (by decide) (by decide)).2 numberOfValues) fourth
  have head : List.Forall₂ (Agrees contents) [need "name" .scalar, may "title" .scalar] _ :=
    .cons (agrees_required writesBack_identifier u.proper
      ((u.has_iff (by decide) (by decide)).2 name) first) <|
    .cons (agrees_optional writesBack_text u.proper
      ((u.may_iff (by decide) (by decide)).2 title) second) .nil
  have middle : List.Forall₂ (Agrees contents)
      [need "mandatory" .scalar, may "numberOfValues" .scalar] _ :=
    .cons (agrees_required writesBack_bool u.proper
      ((u.has_iff (by decide) (by decide)).2 mandatory) third) <| .cons counted .nil
  have last : List.Forall₂ (Agrees contents)
      [may "sub_categories" (.list (.record .category))] _ :=
    .cons (agrees_optional (writesBack_list below) u.proper
      ((u.may_iff (by decide) (by decide)).2 trees) fifth) .nil
  -- the members of the kind stand in two places, among those of every category
  exact List.rel_append (List.rel_append (List.rel_append (List.rel_append head own) middle)
    limits) last

/-- A category is what is written of it when its tags and its other members agree with
that. -/
theorem canon_category (proper : (Json.object members).IsProper)
    (u : Untagged (.object members) contents) {h : CategoryHead} {k : CategoryKind}
    {children : Option (List Category)} {tags rest : List Field}
    {tagTable : List (String × Option Json)} (ofKind : Category.tagTable k = tagTable)
    (declared : Section.fields (.object members) .category = tags ++ rest)
    (tagged : List.Forall₂ (Agrees members) tags tagTable)
    (others : List.Forall₂ (Agrees contents) rest (Category.table h k children))
    (apart : ∀ f ∈ rest, f.key ≠ "category_type" ∧ f.key ≠ "dynamic_subtype") :
    canon (.record .category) (.object members) =
      (Category.encode (.node h k children)).normalize := by
  rw [Category.encode_eq]
  refine canon_record proper (Category.distinct h k children) ?_
  rw [declared]
  refine List.rel_append (ofKind ▸ tagged) (agrees_of_same (fun f mem => ?_) others)
  exact u.same f.key (apart f mem).1 (apart f mem).2

/-- **One level of a tree is written back when the levels below are.**  The tags decide
which of the four readers was used, and which members are declared. -/
theorem writesBack_decodeWith
    (below : WritesBack (IsCategory rules) child (.record .category) Category.encode) :
    WritesBack (IsCategory rules) (Category.decodeWith child) (.record .category)
      Category.encode := by
  intro at_ v c proper form read
  have ⟨head, kind, _, _⟩ := form
  obtain ⟨members, rfl⟩ := head.object
  have distinct := (isProper_object_iff.1 proper).1
  cases kind with
  | simple tag type maxChar pattern =>
    have u := untagged_without proper
    rw [decodeWith_eq distinct tag (by decide)] at read
    obtain ⟨h, k, children, rfl, tags, others⟩ := agrees_node u form below
      (Reading.toExcept_eq_ok_iff.1 read) (agreesKind_simple u type maxChar pattern)
    refine canon_category proper u tags ?_ (.cons (agrees_tag tag) .nil) others (by decide)
    show categoryFields (tagText _ "category_type") _ = _
    rw [tagText_eq tag]
    rfl
  | list tag values =>
    have u := untagged_without proper
    rw [decodeWith_eq distinct tag (by decide)] at read
    obtain ⟨h, k, children, rfl, tags, others⟩ := agrees_node u form below
      (Reading.toExcept_eq_ok_iff.1 read) (agreesKind_list u values)
    refine canon_category proper u tags ?_ (.cons (agrees_tag tag) .nil) others (by decide)
    show categoryFields (tagText _ "category_type") _ = _
    rw [tagText_eq tag]
    rfl
  | independent tag subtype referenceName values =>
    have u := untagged_without_both proper
    rw [decodeWith_dynamic_eq proper tag subtype (by decide)] at read
    obtain ⟨h, k, children, rfl, tags, others⟩ := agrees_node u form below
      (Reading.toExcept_eq_ok_iff.1 read) (agreesKind_independent u referenceName values)
    refine canon_category proper u tags ?_
      (.cons (agrees_tag tag) (.cons (agrees_tag subtype) .nil)) others (by decide)
    show categoryFields (tagText _ "category_type") (tagText _ "dynamic_subtype") = _
    rw [tagText_eq tag, tagText_eq subtype]
    rfl
  | dependent tag subtype dependsOn =>
    have u := untagged_without_both proper
    rw [decodeWith_dynamic_eq proper tag subtype (by decide)] at read
    obtain ⟨h, k, children, rfl, tags, others⟩ := agrees_node u form below
      (Reading.toExcept_eq_ok_iff.1 read) (agreesKind_dependent u dependsOn)
    refine canon_category proper u tags ?_
      (.cons (agrees_tag tag) (.cons (agrees_tag subtype) .nil)) others (by decide)
    show categoryFields (tagText _ "category_type") (tagText _ "dynamic_subtype") = _
    rw [tagText_eq tag, tagText_eq subtype]
    rfl

theorem writesBack_decodeUpTo (levels : Nat) :
    WritesBack (IsCategory rules) (Category.decodeUpTo levels) (.record .category)
      Category.encode := by
  induction levels with
  | zero =>
    intro at_ v c _ _ read
    cases read
  | succ levels ih => exact writesBack_decodeWith ih

theorem writesBack_category :
    WritesBack (IsCategory rules) Category.decode (.record .category) Category.encode :=
  fun _ v _ proper form read => writesBack_decodeUpTo (v.depth + 1) proper form read

end Categories

/-! ## §7. Documents. -/

theorem writesBack_protocol {rules : IntegerRules} :
    WritesBack (IsProtocol rules) ReviewProtocol.decode (.record .document)
      ReviewProtocol.encode := by
  intro at_ v p proper form read
  obtain ⟨⟨members, rfl⟩, project, screening, quality, categories, reporting⟩ := form
  replace read := Reading.toExcept_eq_ok_iff.1 read
  simp only [Reading.seq_eq_done_iff, Reading.map_eq_done_iff] at read
  obtain ⟨_, ⟨_, ⟨_, ⟨_, ⟨_, first, rfl⟩, _, second, rfl⟩, _, third, rfl⟩, _, fourth, rfl⟩, _,
    fifth, rfl⟩ := read
  rw [ReviewProtocol.encode_eq]
  exact canon_record proper (ReviewProtocol.distinct _) <|
    .cons (agrees_required writesBack_project proper project first) <|
    .cons (agrees_optional writesBack_screening proper screening second) <|
    .cons (agrees_optional writesBack_quality proper quality third) <|
    .cons (agrees_required (writesBack_list writesBack_category) proper categories fourth) <|
    .cons (agrees_optional (writesBack_list writesBack_report) proper reporting fifth) .nil

/-- **What is written of a protocol is the canonical form of the document it was read
from.** -/
theorem canon_of_decode {rules : IntegerRules} {at_ : Standing} {v : Json} {p : ReviewProtocol}
    (proper : v.IsProper) (form : IsProtocol rules v) (read : ReviewProtocol.decode at_ v = .ok p) :
    canon (.record .document) v = p.encode.normalize :=
  writesBack_protocol proper form read

end LiteratureReview
