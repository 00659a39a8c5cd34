/-
  LiteratureReview.Proofs.Json.Inversion
  ──────────────────────────────────────
  What a value has been read from.

  Whatever a decoder answers, it has read from parts of the value it was
  given: the members of an object, or the elements of a list.  So what is
  known of every part of a value is known of the fields of a record
  (`exists_part_of_required`, `exists_part_of_optional`), whichever of its
  two forms the record was given in.
-/
import LiteratureReview.Proofs.Json.Records

namespace LiteratureReview

open Json

/-! ## §1. Parts of a value. -/

namespace Json

/-- The elements of a list, or what stands under the keys of an object. -/
def parts : Json → List Json
  | .list items => items
  | .object members => members.map (·.2)
  | .null | .bool _ | .number _ | .text _ => []

/-- What passes for all parts of a value passes for the parts of each. -/
theorem every_part {number : Number → Bool} {keys : List String → Bool} {v w : Json}
    (h : v.every number keys = true) (part : w ∈ v.parts) : w.every number keys = true := by
  cases v with
  | list items => exact every_list_iff.1 h w part
  | object members =>
    obtain ⟨m, mem, rfl⟩ := List.mem_map.1 part
    exact (every_object_iff.1 h).2 m mem
  | _ => cases part

theorem IsProper.part {v w : Json} (h : v.IsProper) (part : w ∈ v.parts) : w.IsProper :=
  every_part h part

theorem HasProperNumbers.part {v w : Json} (h : v.HasProperNumbers) (part : w ∈ v.parts) :
    w.HasProperNumbers :=
  every_part h part

theorem depth_part_lt {v w : Json} (part : w ∈ v.parts) : w.depth < v.depth := by
  cases v with
  | list items => exact depth_item_lt part
  | object members =>
    obtain ⟨m, mem, rfl⟩ := List.mem_map.1 part
    exact depth_member_lt mem
  | _ => cases part

end Json

/-! ## §2. Readings. -/

namespace Reading

variable {α β : Type}

theorem map_eq_done_iff {f : α → β} {r : Reading α} {b : β} :
    f <$> r = .done b ↔ ∃ a, r = .done a ∧ f a = b := by
  cases r <;> simp [Functor.map, map]

theorem seq_eq_done_iff {f : Reading (α → β)} {r : Reading α} {b : β} :
    f <*> r = .done b ↔ ∃ g, f = .done g ∧ ∃ a, r = .done a ∧ g a = b := by
  cases f with
  | done g => cases r <;> simp [Seq.seq, both]
  | fault i c =>
    cases r with
    | done a => simp [Seq.seq, both]
    | fault j d =>
      simp only [Seq.seq, both]
      split <;> simp

theorem toExcept_eq_ok_iff {r : Reading α} {a : α} : r.toExcept = .ok a ↔ r = .done a := by
  cases r <;> simp [toExcept]

theorem ofExcept_eq_done_iff {rank : Nat} {x : Except DecodeError α} {a : α} :
    ofExcept rank x = .done a ↔ x = .ok a := by
  cases x <;> simp [ofExcept]

end Reading

/-! ## §3. Fields. -/

/-- What is something and not nothing has been read from a value other than null. -/
theorem Decoder.eq_ok_of_nullable {α : Type} {d : Decoder α} {at_ : Standing} {v : Json} {a : α}
    (h : nullable d at_ v = .ok (some a)) : v ≠ .null ∧ d at_ v = .ok a := by
  have present : v ≠ .null := by
    rintro rfl
    cases h
  refine ⟨present, ?_⟩
  cases read : d at_ v <;> cases v <;> simp_all [nullable, Except.map]

namespace Fields

variable {α : Type} {f : Fields} {name : String} {d : Decoder α}

/-- The values of a record that is being read. -/
def values (f : Fields) : List Json :=
  match f.contents with
  | .named members => members.map (·.2)
  | .listed items => items

/-- From any index on, what occurs under a key is the value of a member. -/
theorem mem_of_go {members : List (String × Json)} {i j : Nat} {v : Json}
    (h : (j, v) ∈ occurrences.go name i members) : v ∈ members.map (·.2) := by
  induction members generalizing i with
  | nil => cases h
  | cons m rest ih =>
    obtain ⟨k, w⟩ := m
    rw [occurrences.go] at h
    split at h
    · rcases List.mem_cons.1 h with same | later
      · cases same
        exact List.mem_cons_self
      · exact List.mem_cons_of_mem _ (ih later)
    · exact List.mem_cons_of_mem _ (ih h)

/-- What is read for a field was given, or is its default. -/
theorem exists_of_field {absent unlisted : Option α} {a : α}
    (h : f.field name d absent unlisted = .done a) :
    (∃ v ∈ f.values, d f.standing v = .ok a) ∨ absent = some a ∨ unlisted = some a := by
  obtain ⟨type, standing, contents⟩ := f
  cases contents with
  | named members =>
    cases given : occurrences members name with
    | nil =>
      cases absent <;> simp_all [field]
    | cons first later =>
      obtain ⟨i, v⟩ := first
      have there : v ∈ members.map (·.2) := mem_of_go (given ▸ List.mem_cons_self)
      simp only [field, given] at h
      cases read : d standing v with
      | error cause => simp [read] at h
      | ok b =>
        cases later with
        | cons second _ => simp [read] at h
        | nil =>
          simp only [read, Reading.done.injEq] at h
          exact .inl ⟨v, there, h ▸ read⟩
  | listed items =>
    simp only [field] at h
    split at h
    next v given =>
      exact .inl ⟨v, List.mem_of_getElem? given, Reading.ofExcept_eq_done_iff.1 h⟩
    next =>
      cases unlisted <;> simp_all

theorem exists_part_of_required {a : α} (h : f.required name d = .done a) :
    ∃ v ∈ f.values, d f.standing v = .ok a := by
  rcases exists_of_field h with given | default | default
  · exact given
  · cases default
  · cases default

theorem exists_part_of_optional {a : α} (h : f.optional name d = .done (some a)) :
    ∃ v ∈ f.values, v ≠ .null ∧ d f.standing v = .ok a := by
  rcases exists_of_field h with ⟨v, there, read⟩ | default | default
  · exact ⟨v, there, Decoder.eq_ok_of_nullable read⟩
  · cases default
  · cases default

/-- What is read for a key of an object stands under that key. -/
theorem lookup_of_field {members : List (String × Json)} {t : RecordType} {at_ : Standing}
    (distinct : (members.map (·.1)).Nodup) {absent unlisted : Option α} {a : α}
    (h : field ⟨t, at_, .named members⟩ name d absent unlisted = .done a) :
    absent = some a ∨ ∃ w, members.lookup name = some w ∧ d at_ w = .ok a := by
  rcases go_eq_lookup name distinct 0 with ⟨_, none⟩ | ⟨v, j, there, once⟩
  · simp only [field, occurrences, none] at h
    cases absent <;> simp_all
  · simp only [field, occurrences, once] at h
    cases read : d at_ v with
    | error cause => simp [read] at h
    | ok b =>
      simp only [read, Reading.done.injEq] at h
      exact .inr ⟨v, there, h ▸ read⟩

theorem lookup_of_required {members : List (String × Json)} {t : RecordType} {at_ : Standing}
    (distinct : (members.map (·.1)).Nodup) {a : α}
    (h : required ⟨t, at_, .named members⟩ name d = .done a) :
    ∃ w, members.lookup name = some w ∧ d at_ w = .ok a :=
  (lookup_of_field distinct h).resolve_left nofun

theorem lookup_of_optional {members : List (String × Json)} {t : RecordType} {at_ : Standing}
    (distinct : (members.map (·.1)).Nodup) {a : α}
    (h : optional ⟨t, at_, .named members⟩ name d = .done (some a)) :
    ∃ w, members.lookup name = some w ∧ w ≠ .null ∧ d at_ w = .ok a := by
  obtain ⟨w, there, read⟩ := (lookup_of_field distinct h).resolve_left nofun
  exact ⟨w, there, Decoder.eq_ok_of_nullable read⟩

end Fields

/-! ## §4. Decoders. -/

theorem Decoder.exists_item_of_list {α : Type} {d : Decoder α} {at_ : Standing} {v : Json}
    {as : List α} (h : list d at_ v = .ok as) : ∀ a ∈ as, ∃ w ∈ v.parts, d at_ w = .ok a := by
  cases v with
  | list items =>
    replace h : items.mapM (d at_) = .ok as := h
    show ∀ a ∈ as, ∃ w ∈ items, d at_ w = .ok a
    induction items generalizing as with
    | nil =>
      cases h
      nofun
    | cons w rest ih =>
      obtain ⟨b, bs, first, others, rfl⟩ := mapM_cons_eq_ok_iff.1 h
      intro a mem
      rcases List.mem_cons.1 mem with rfl | later
      · exact ⟨w, List.mem_cons_self, first⟩
      · obtain ⟨x, there, read⟩ := ih others a later
        exact ⟨x, List.mem_cons_of_mem _ there, read⟩
  | _ => cases h

/-- A record is read from the parts of a value. -/
theorem RecordType.exists_of_decode {α : Type} {t : RecordType} {build : Fields → Reading α}
    {at_ : Standing} {v : Json} {a : α} (h : t.decode build at_ v = .ok a) :
    ∃ f : Fields, f.values = v.parts ∧ f.standing = at_ ∧ build f = .done a := by
  cases v with
  | object members =>
    exact ⟨⟨t, at_, .named members⟩, rfl, rfl, Reading.toExcept_eq_ok_iff.1 h⟩
  | list items =>
    refine ⟨⟨t, at_, .listed items⟩, rfl, rfl, ?_⟩
    cases read : build ⟨t, at_, .listed items⟩ with
    | fault rank cause =>
      simp only [decode, read, Reading.toExcept] at h
      cases h
    | done b =>
      simp only [decode, read, Reading.toExcept, bind, Except.bind] at h
      split at h
      · cases h
      · cases h
        rfl
  | _ => cases h

/-- The contents of a tagged value are parts of the value. -/
theorem UnionType.parts_of_split {u : UnionType} {at_ : Standing} {v contents : Json}
    {variant : String} (h : u.split at_ v = .ok (variant, contents)) :
    ∀ w ∈ contents.parts, w ∈ v.parts := by
  unfold split at h
  split at h
  next members =>
    split at h
    next => cases h
    next first later _ =>
      cases named : u.variant at_ first with
      | error cause => simp [named, bind, Except.bind] at h
      | ok name =>
        cases later with
        | cons second _ =>
          simp [named, bind, Except.bind, throw, throwThe, MonadExceptOf.throw] at h
        | nil =>
          simp [named, bind, Except.bind, pure, Except.pure] at h
          obtain ⟨-, rfl⟩ := h
          intro w mem
          obtain ⟨m, there, rfl⟩ := List.mem_map.1 mem
          exact List.mem_map_of_mem (List.mem_filter.1 there).1
  next => cases h
  next first rest =>
    cases named : u.variant at_ first with
    | error cause => simp [named, bind, Except.bind] at h
    | ok name =>
      simp [named, bind, Except.bind, pure, Except.pure] at h
      obtain ⟨-, rfl⟩ := h
      exact fun w mem => List.mem_cons_of_mem _ mem
  next => cases h

end LiteratureReview
