/-
  LiteratureReview.Proofs.Json.Records
  ────────────────────────────────────
  When reading succeeds.

  A decoder accepts a value (`Reads`), a reading is without fault (`Done`):
  both only say that there is a result.  A record is read exactly when each
  of its fields is (`done_seq_iff`, `done_required_iff`,
  `done_optional_iff`), so what a record decoder accepts is the conjunction
  of what is asked of its fields.
-/
import LiteratureReview.Json.Decoding
import LiteratureReview.Proofs.Json.Proper

namespace LiteratureReview

open Json

/-! ## §1. Values that are read. -/

/-- The decoder accepts the value. -/
def Decoder.Reads {α : Type} (d : Decoder α) (at_ : Standing) (v : Json) : Prop :=
  ∃ a, d at_ v = .ok a

/-- The reading is without fault. -/
def Reading.Done {α : Type} (r : Reading α) : Prop :=
  ∃ a, r = .done a

theorem exists_map_eq_ok_iff {ε α β : Type} {x : Except ε α} {f : α → β} :
    (∃ b, x.map f = .ok b) ↔ ∃ a, x = .ok a := by
  cases x <;> simp [Except.map]

/-- A computation that succeeds does so in both of its steps. -/
theorem exists_of_bind_eq_ok {α β ε : Type} {x : Except ε α} {f : α → Except ε β} {b : β}
    (done : (x >>= f) = .ok b) : ∃ a, x = .ok a ∧ f a = .ok b := by
  cases x with
  | error e => cases done
  | ok a => exact ⟨a, rfl, done⟩

theorem exists_of_map_eq_ok {α β ε : Type} {x : Except ε α} {f : α → β} {b : β}
    (done : x.map f = .ok b) : ∃ a, x = .ok a ∧ f a = b := by
  cases x with
  | error e => cases done
  | ok a => exact ⟨a, rfl, Except.ok.inj done⟩

theorem eq_ok_of_mapError {α ε δ : Type} {x : Except ε α} {f : ε → δ} {a : α}
    (done : x.mapError f = .ok a) : x = .ok a := by
  cases x with
  | error e => cases done
  | ok b => exact congrArg Except.ok (Except.ok.inj done)

theorem toOption_eq_some_iff {α ε : Type} {x : Except ε α} {a : α} :
    x.toOption = some a ↔ x = .ok a := by
  cases x <;> simp [Except.toOption]

/-- What succeeds on every element succeeds on the list. -/
theorem mapM_eq_ok_map {ε α β : Type} {f : α → Except ε β} {g : α → β} {items : List α}
    (h : ∀ x ∈ items, f x = .ok (g x)) : items.mapM f = .ok (items.map g) := by
  induction items with
  | nil => rfl
  | cons x rest ih =>
    obtain ⟨head, tail⟩ := List.forall_mem_cons.1 h
    rw [List.mapM_cons, head, ih tail]
    rfl

/-- A list goes well when its first element and the others do. -/
theorem mapM_cons_eq_ok_iff {ε α β : Type} {f : α → Except ε β} {x : α} {rest : List α}
    {bs : List β} :
    (x :: rest).mapM f = .ok bs ↔
      ∃ b others, f x = .ok b ∧ rest.mapM f = .ok others ∧ b :: others = bs := by
  rw [List.mapM_cons]
  cases f x with
  | error cause => simp [bind, Except.bind]
  | ok b => cases rest.mapM f <;> simp [bind, Except.bind, pure, Except.pure]

theorem forall₂_of_mapM {ε α β : Type} {f : α → Except ε β} {items : List α} {bs : List β}
    (done : items.mapM f = .ok bs) : List.Forall₂ (fun a b => f a = .ok b) items bs := by
  induction items generalizing bs with
  | nil =>
    cases done
    exact .nil
  | cons x rest ih =>
    obtain ⟨b, others, first, later, rfl⟩ := mapM_cons_eq_ok_iff.1 done
    exact .cons first (ih later)

namespace Decoder

variable {α : Type} {at_ : Standing} {v : Json}

@[simp] theorem reads_text_iff : text.Reads at_ v ↔ ∃ s, v = .text s := by
  cases v <;> simp [Reads, text, refuse]

@[simp] theorem reads_bool_iff : bool.Reads at_ v ↔ ∃ b, v = .bool b := by
  cases v <;> simp [Reads, bool, refuse]

@[simp] theorem reads_double_iff : double.Reads at_ v ↔ ∃ n, v = .number n := by
  cases v <;> simp [Reads, double, refuse]

@[simp] theorem reads_any : any.Reads at_ v :=
  ⟨v.normalize, rfl⟩

theorem reads_checkedText_iff {expected : String} {check : String → Except String α} :
    (checkedText expected check).Reads at_ v ↔ ∃ s, v = .text s ∧ ∃ a, check s = .ok a := by
  cases v with
  | text s => cases h : check s <;> simp [Reads, checkedText, Except.mapError, h]
  | _ => simp [Reads, checkedText, refuse]

/-- An integer is read when it is written as one and lies in the range. -/
theorem reads_integer_iff {low high : Int} {expected : String} :
    (integer low high expected).Reads at_ v ↔
      ∃ i, v = .number (.int i) ∧ low ≤ i ∧ i ≤ high := by
  cases v with
  | number n =>
    cases n with
    | int i => by_cases h : low ≤ i ∧ i ≤ high <;> simp [Reads, integer, integerOf, h]
    | float x => simp [Reads, integer, integerOf]
  | _ => simp [Reads, integer, refuse]

theorem reads_u32_iff :
    u32.Reads at_ v ↔ ∃ i, v = .number (.int i) ∧ 0 ≤ i ∧ i ≤ 4294967295 := by
  unfold Reads u32
  rw [exists_map_eq_ok_iff]
  exact reads_integer_iff

theorem reads_i64_iff :
    i64.Reads at_ v ↔
      ∃ i, v = .number (.int i) ∧ -9223372036854775808 ≤ i ∧ i ≤ 9223372036854775807 :=
  reads_integer_iff

theorem reads_nullable_iff {d : Decoder α} :
    (nullable d).Reads at_ v ↔ v = .null ∨ d.Reads at_ v := by
  cases v <;> simp [Reads, nullable, exists_map_eq_ok_iff]

theorem exists_mapM_eq_ok_iff {β ε : Type} {f : β → Except ε α} {items : List β} :
    (∃ as, items.mapM f = .ok as) ↔ ∀ x ∈ items, ∃ a, f x = .ok a := by
  induction items with
  | nil => exact ⟨fun _ _ h => by simp at h, fun _ => ⟨[], rfl⟩⟩
  | cons x rest ih =>
    rw [List.forall_mem_cons, ← ih, List.mapM_cons]
    cases f x with
    | error e => simp [bind, Except.bind]
    | ok a => cases rest.mapM f <;> simp [bind, Except.bind, pure, Except.pure]

theorem reads_list_iff {d : Decoder α} :
    (list d).Reads at_ v ↔ ∃ items, v = .list items ∧ ∀ w ∈ items, d.Reads at_ w := by
  cases v with
  | list items => simp [Reads, list, exists_mapM_eq_ok_iff]
  | _ => simp [Reads, list, refuse]

/-- A plain enumeration reads its names. -/
theorem reads_choice_of_mem {table : List (String × α)} {name : String}
    (h : name ∈ table.map (·.1)) : (choice table).Reads at_ (.text name) := by
  have found : ∃ a, table.lookup name = some a := by
    induction table with
    | nil => simp at h
    | cons e rest ih =>
      rw [List.lookup_cons]
      split
      case h_1 => exact ⟨_, rfl⟩
      case h_2 other => exact ih (by simpa [beq_eq_false_iff_ne.1 other] using h)
  obtain ⟨a, ha⟩ := found
  exact ⟨a, by simp [choice, ofName, ha]⟩

end Decoder

/-! ## §2. Readings without fault. -/

namespace Reading

variable {α β : Type}

@[simp] theorem done_map_iff {f : α → β} {r : Reading α} : (f <$> r).Done ↔ r.Done := by
  cases r <;> simp [Done, Functor.map, map]

@[simp] theorem done_seq_iff {f : Reading (α → β)} {r : Reading α} :
    (f <*> r).Done ↔ f.Done ∧ r.Done := by
  cases f with
  | done g => cases r <;> simp [Done, Seq.seq, both]
  | fault i c =>
    cases r with
    | done a => simp [Done, Seq.seq, both]
    | fault j d =>
      simp only [Done, Seq.seq, both]
      split <;> simp

theorem exists_toExcept_iff {r : Reading α} : (∃ a, r.toExcept = .ok a) ↔ r.Done := by
  cases r <;> simp [Done, toExcept]

end Reading

/-! ## §3. Fields of records. -/

namespace Fields

variable {α : Type} {members : List (String × Json)} {name : String}

/-- From any index on, a key no member has occurs nowhere. -/
theorem go_eq_nil (h : name ∉ members.map (·.1)) (i : Nat) :
    occurrences.go name i members = [] := by
  induction members generalizing i with
  | nil => rfl
  | cons m rest ih =>
    obtain ⟨k, v⟩ := m
    simp only [List.map_cons, List.mem_cons, not_or] at h
    rw [occurrences.go, if_neg (fun e => h.1 e.symm)]
    exact ih h.2 (i + 1)

/-- Under distinct keys a key occurs where it is looked up, or not at all. -/
theorem go_eq_lookup (name : String) (distinct : (members.map (·.1)).Nodup) (i : Nat) :
    (members.lookup name = none ∧ occurrences.go name i members = []) ∨
      ∃ v j, members.lookup name = some v ∧ occurrences.go name i members = [(j, v)] := by
  induction members generalizing i with
  | nil => exact .inl ⟨rfl, rfl⟩
  | cons m rest ih =>
    obtain ⟨k, v⟩ := m
    rw [List.map_cons, List.nodup_cons] at distinct
    rw [List.lookup_cons, occurrences.go]
    by_cases hk : k = name
    · subst hk
      refine .inr ⟨v, i, by simp, ?_⟩
      rw [if_pos rfl, go_eq_nil distinct.1]
    · rw [beq_false_of_ne (Ne.symm hk), if_neg hk]
      exact ih distinct.2 (i + 1)

variable {t : RecordType} {at_ : Standing} {d : Decoder α}

/-- A field that is given once is what its decoder makes of it. -/
theorem field_of_lookup (distinct : (members.map (·.1)).Nodup) {w : Json}
    (found : members.lookup name = some w) {absent unlisted : Option α} {a : α}
    (read : d at_ w = .ok a) :
    field ⟨t, at_, .named members⟩ name d absent unlisted = .done a := by
  rcases go_eq_lookup name distinct 0 with ⟨missing, -⟩ | ⟨v, j, there, once⟩
  · rw [missing] at found
    cases found
  · obtain rfl : v = w := Option.some.inj (there.symm.trans found)
    simp only [field, occurrences, once, read]

/-- A field that is left out has its default. -/
theorem field_of_absent (distinct : (members.map (·.1)).Nodup)
    (missing : members.lookup name = none) {absent : α} {unlisted : Option α} :
    field ⟨t, at_, .named members⟩ name d (some absent) unlisted = .done absent := by
  rcases go_eq_lookup name distinct 0 with ⟨-, none⟩ | ⟨v, j, there, -⟩
  · simp only [field, occurrences, none]
  · rw [missing] at there
    cases there

theorem done_field_iff (name : String) (distinct : (members.map (·.1)).Nodup)
    {absent unlisted : Option α} :
    (field ⟨t, at_, .named members⟩ name d absent unlisted).Done ↔
      (members.lookup name = none ∧ absent.isSome) ∨
        ∃ w, members.lookup name = some w ∧ d.Reads at_ w := by
  rcases go_eq_lookup name distinct 0 with ⟨missing, none⟩ | ⟨v, j, there, once⟩
  · cases absent <;> simp [field, occurrences, none, missing, Reading.Done]
  · cases h : d at_ v <;> simp [field, occurrences, once, there, h, Reading.Done, Decoder.Reads]

/-- A field that has to be given is read when it is there and its decoder
accepts the value. -/
theorem done_required_iff (name : String) (distinct : (members.map (·.1)).Nodup) :
    (required ⟨t, at_, .named members⟩ name d).Done ↔
      (Json.object members).Has name (d.Reads at_) := by
  rw [required, done_field_iff name distinct]
  simp [Has, get?]

/-- A field that may be left out is read when it is absent or null, or its
decoder accepts the value. -/
theorem done_optional_iff (name : String) (distinct : (members.map (·.1)).Nodup) :
    (optional ⟨t, at_, .named members⟩ name d).Done ↔
      (Json.object members).May name (d.Reads at_) := by
  rw [optional, done_field_iff name distinct]
  cases h : members.lookup name <;> simp [May, get?, h, Decoder.reads_nullable_iff]

end Fields

/-- A record is read from an object when all its fields are. -/
theorem RecordType.reads_decode_iff {α : Type} {t : RecordType} {build : Fields → Reading α}
    {at_ : Standing} {members : List (String × Json)} :
    (t.decode build).Reads at_ (.object members) ↔ (build ⟨t, at_, .named members⟩).Done :=
  Reading.exists_toExcept_iff

/-- The tag of a union is read off a text that names a variant. -/
theorem UnionType.split_object (u : UnionType) (at_ : Standing) {members : List (String × Json)}
    (distinct : (members.map (·.1)).Nodup) {name : String}
    (found : members.lookup u.tag = some (.text name)) (known : name ∈ u.variants) :
    u.split at_ (.object members) = .ok (name, .object (without u.tag members)) := by
  rcases Fields.go_eq_lookup u.tag distinct 0 with ⟨missing, -⟩ | ⟨v, j, there, once⟩
  · rw [missing] at found
    cases found
  · obtain rfl : v = .text name := Option.some.inj (there.symm.trans found)
    have read : u.variant at_ (.text name) = .ok name := by
      cases at_ <;> simp [variant, known]
    simp only [split, Fields.occurrences, once, read]
    rfl

end LiteratureReview
