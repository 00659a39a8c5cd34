/-
  LiteratureReview.Proofs.Json.Unordered
  ──────────────────────────────────────
  Reading does not depend on the order of members.

  A decoder looks its fields up by key, so it reads the same from a value
  and from the value with its members sorted (`Decoder.IgnoresOrder`).
  There is one lemma for each way in which decoders are put together: the
  scalars, lists, records by their fields (`Fields.IgnoresOrder`), and
  tagged unions, whose tag is taken out before the contents are read.
-/
import LiteratureReview.Proofs.Json.Inversion
import LiteratureReview.Proofs.Json.Ordering

namespace LiteratureReview

open Json

/-! ## §1. Sorted values. -/

namespace Json

variable {key tag : String} {value : Json} {members : List (String × Json)} {v : Json}

theorem without_cons_self : without key ((key, value) :: members) = without key members :=
  List.filter_cons_of_neg (by simp)

theorem without_cons (other : key ≠ tag) :
    without tag ((key, value) :: members) = (key, value) :: without tag members :=
  List.filter_cons_of_pos (by simpa using other)

/-- What is under a tag is not inserted when the tag is taken out. -/
theorem without_insertMember_self :
    without key (insertMember key value members) = without key members := by
  induction members with
  | nil => exact without_cons_self
  | cons m rest ih =>
    obtain ⟨k, v⟩ := m
    rw [insertMember]
    split
    · rw [without_cons_self]
    · split
      next same =>
        subst same
        rw [without_cons_self, without_cons_self]
      next other =>
        rw [without_cons (Ne.symm other), without_cons (Ne.symm other), ih]

/-- A tag can be taken out before another key is inserted. -/
theorem without_insertMember (other : key ≠ tag)
    (sorted : (members.map (·.1)).Pairwise (· < ·)) :
    without tag (insertMember key value members) =
      insertMember key value (without tag members) := by
  induction members with
  | nil => exact without_cons other
  | cons m rest ih =>
    obtain ⟨k, v⟩ := m
    rw [List.map_cons, List.pairwise_cons] at sorted
    rw [insertMember]
    by_cases tagged : k = tag
    · subst tagged
      rw [without_cons_self, if_neg other]
      split
      next before =>
        rw [without_cons other, without_cons_self]
        -- the key comes before the tag, and so before all that is left
        refine (insertMember_of_least fun l mem => lt_trans before (sorted.1 l ?_)).symm
        exact (List.filter_sublist.map _).subset mem
      next => rw [without_cons_self, ih sorted.2]
    · rw [without_cons tagged, insertMember]
      split
      · rw [without_cons other, without_cons tagged]
      · split
        · rw [without_cons other]
        · rw [without_cons tagged, ih sorted.2]

/-- It makes no difference whether a tag is taken out before or after sorting. -/
theorem without_normalizeMembers :
    without tag (normalizeMembers members) = normalizeMembers (without tag members) := by
  induction members with
  | nil => rfl
  | cons m rest ih =>
    obtain ⟨k, v⟩ := m
    by_cases tagged : k = tag
    · -- the member that is taken out may have been dropped as a repeated key before
      subst tagged
      rw [without_cons_self, ← ih, normalizeMembers]
      split
      · rfl
      · exact without_insertMember_self
    · -- whether another key is repeated is not seen in the members under the tag
      have known : ((without tag (normalizeMembers rest)).any (·.1 == k)) =
          (normalizeMembers rest).any (·.1 == k) := by
        rw [Bool.eq_iff_iff, List.any_eq_true, List.any_eq_true]
        constructor
        · rintro ⟨m, mem, same⟩
          exact ⟨m, (List.mem_filter.1 mem).1, same⟩
        · rintro ⟨m, mem, same⟩
          have stays : (m.1 != tag) = true := by rwa [eq_of_beq same, bne_iff_ne]
          exact ⟨m, List.mem_filter.2 ⟨mem, stays⟩, same⟩
      rw [without_cons tagged, normalizeMembers, normalizeMembers]
      simp only [← ih, known]
      split
      · rfl
      · exact without_insertMember tagged pairwise_normalizeMembers

/-- **Sorting leaves the depth as it is.** -/
theorem depth_normalize (proper : v.IsProper) : v.normalize.depth = v.depth := by
  refine Nat.le_antisymm (depth_normalize_le v) ?_
  induction v using depth_induction with
  | step v ih =>
    cases v with
    | list items =>
      rw [normalize, normalizeItems_eq_map, depth, depth]
      refine Nat.succ_le_succ (depthItems_le fun w mem => ?_)
      exact (ih w (depth_item_lt mem) (isProper_list_iff.1 proper w mem)).trans
        (depth_le_depthItems (List.mem_map_of_mem mem))
    | object members =>
      obtain ⟨distinct, each⟩ := isProper_object_iff.1 proper
      rw [normalize, depth, depth]
      refine Nat.succ_le_succ (depthMembers_le fun m mem => ?_)
      -- with distinct keys no member is dropped, so that the deepest one is still there
      have found : (normalizeMembers members).lookup m.1 = some m.2.normalize := by
        rw [lookup_normalizeMembers distinct, lookup_of_mem distinct mem, Option.map_some]
      exact (ih m.2 (depth_member_lt mem) (each m mem)).trans
        (depth_le_depthMembers (mem_of_lookup found))
    | null | bool b | number n | text s => exact Nat.le_refl _

theorem length_insertMember (new : key ∉ members.map (·.1)) :
    (insertMember key value members).length = members.length + 1 := by
  induction members with
  | nil => rfl
  | cons m rest ih =>
    obtain ⟨k, v⟩ := m
    simp only [List.map_cons, List.mem_cons, not_or] at new
    rw [insertMember]
    split
    · rfl
    · rw [if_neg new.1, List.length_cons, ih new.2, List.length_cons]

theorem length_normalizeMembers (distinct : (members.map (·.1)).Nodup) :
    (normalizeMembers members).length = members.length := by
  induction members with
  | nil => rfl
  | cons m rest ih =>
    obtain ⟨k, v⟩ := m
    rw [List.map_cons, List.nodup_cons] at distinct
    have new : k ∉ (normalizeMembers rest).map (·.1) := by
      intro mem
      obtain ⟨m, there, rfl⟩ := List.mem_map.1 mem
      obtain ⟨w, before, _⟩ := mem_normalizeMembers m there
      exact distinct.1 (List.mem_map.2 ⟨_, before, rfl⟩)
    -- so the first member is inserted among the others, and not dropped
    have unknown : (normalizeMembers rest).any (·.1 == k) = false := by
      rw [List.any_eq_false]
      intro m mem same
      exact new (List.mem_map.2 ⟨m, mem, eq_of_beq same⟩)
    rw [normalizeMembers]
    simp only [unknown, Bool.false_eq_true, if_false]
    rw [length_insertMember new, ih distinct.2, List.length_cons]

theorem normalize_eq_null_iff : v.normalize = .null ↔ v = .null := by
  cases v <;> simp [Json.normalize]

theorem normalize_eq_empty_iff (proper : v.IsProper) :
    v.normalize = .object [] ↔ v = .object [] := by
  cases v with
  | object members =>
    have length := length_normalizeMembers (isProper_object_iff.1 proper).1
    simp only [Json.normalize, Json.object.injEq, ← List.length_eq_zero_iff, length]
  | _ => simp [Json.normalize]

end Json

/-! ## §2. Scalars and lists. -/

/-- The order of members makes no difference to a decoder. -/
def Decoder.IgnoresOrder {α : Type} (d : Decoder α) : Prop :=
  ∀ ⦃at_ : Standing⦄ ⦃v : Json⦄ ⦃a : α⦄, v.IsProper →
    (d at_ v.normalize = .ok a ↔ d at_ v = .ok a)

namespace Decoder

variable {α : Type} {d : Decoder α}

theorem ignoresOrder_text : text.IgnoresOrder := by
  intro at_ v a proper
  cases v <;> simp [text, refuse, Json.normalize]

theorem ignoresOrder_checkedText {expected : String} {check : String → Except String α} :
    (checkedText expected check).IgnoresOrder := by
  intro at_ v a proper
  cases v <;> simp [checkedText, refuse, Json.normalize]

theorem ignoresOrder_bool : bool.IgnoresOrder := by
  intro at_ v a proper
  cases v <;> simp [bool, refuse, Json.normalize]

theorem ignoresOrder_integer {low high : Int} {expected : String} :
    (integer low high expected).IgnoresOrder := by
  intro at_ v a proper
  cases v <;> simp [integer, refuse, Json.normalize]

theorem ignoresOrder_u32 : u32.IgnoresOrder := by
  intro at_ v a proper
  cases v <;> simp [u32, integer, refuse, Json.normalize, Except.map]

theorem ignoresOrder_double : double.IgnoresOrder := by
  intro at_ v a proper
  cases v <;> simp [double, refuse, Json.normalize]

theorem ignoresOrder_any : any.IgnoresOrder := by
  intro at_ v a proper
  unfold any
  rw [normalize_of_isOrdered (isOrdered_normalize proper.hasProperNumbers)]

theorem nullable_of_ne {at_ : Standing} {v : Json} (present : v ≠ .null) :
    nullable d at_ v = (d at_ v).map some := by
  cases v with
  | null => exact absurd rfl present
  | _ => rfl

theorem map_some_eq_ok_iff {ε : Type} {x : Except ε α} {o : Option α} :
    x.map some = .ok o ↔ ∃ a, x = .ok a ∧ o = some a := by
  cases x <;> simp [Except.map, eq_comm]

theorem ignoresOrder_nullable (h : d.IgnoresOrder) : (nullable d).IgnoresOrder := by
  intro at_ v a proper
  by_cases absent : v = .null
  · rw [absent, Json.normalize]
  · rw [nullable_of_ne absent, nullable_of_ne (mt normalize_eq_null_iff.1 absent),
      map_some_eq_ok_iff, map_some_eq_ok_iff]
    exact exists_congr fun b => and_congr_left fun _ => h proper

theorem ignoresOrder_list (h : d.IgnoresOrder) : (list d).IgnoresOrder := by
  intro at_ v as proper
  cases v with
  | list items =>
    rw [isProper_list_iff] at proper
    show (normalizeItems items).mapM (d at_) = .ok as ↔ items.mapM (d at_) = .ok as
    rw [normalizeItems_eq_map]
    induction items generalizing as with
    | nil => exact Iff.rfl
    | cons v rest ih =>
      obtain ⟨first, others⟩ := List.forall_mem_cons.1 proper
      rw [List.map_cons, mapM_cons_eq_ok_iff, mapM_cons_eq_ok_iff]
      refine exists_congr fun b => exists_congr fun bs => ?_
      rw [h first, ih others]
  | _ => simp [list, refuse, Json.normalize]

theorem emptyContents_eq_ok_iff {at_ : Standing} {v : Json} :
    emptyContents at_ v = .ok () ↔ v = .null ∨ at_ = .held ∧ v = .object [] := by
  cases v with
  | object members => cases members <;> cases at_ <;> simp [emptyContents, refuse]
  | _ => simp [emptyContents, refuse]

theorem choice_object_eq_ok_iff {table : List (String × α)} {at_ : Standing}
    {members : List (String × Json)} {a : α} :
    choice table at_ (.object members) = .ok a ↔
      ∃ name contents, members = [(name, contents)] ∧ ofName table name = .ok a ∧
        emptyContents at_ contents = .ok () := by
  match members with
  | [] => simp [choice]
  | [(name, contents)] =>
    simp only [choice, bind, Except.bind, pure, Except.pure]
    cases named : ofName table name <;> cases empty : emptyContents at_ contents <;>
      simp [named, empty]
  | m :: l :: rest => simp [choice]

/-- A name may stand in an object of its own, which has one member however it is
sorted. -/
theorem ignoresOrder_choice {table : List (String × α)} : (choice table).IgnoresOrder := by
  intro at_ v a proper
  cases v with
  | object members =>
    obtain ⟨distinct, each⟩ := isProper_object_iff.1 proper
    have length := length_normalizeMembers distinct
    rw [Json.normalize, choice_object_eq_ok_iff, choice_object_eq_ok_iff]
    -- a name stands in an object of one member; no other object has one when it is sorted
    rcases members with _ | ⟨⟨name, contents⟩, _ | ⟨l, rest⟩⟩
    · simp [normalizeMembers]
    · have empty : emptyContents at_ contents.normalize = .ok () ↔
          emptyContents at_ contents = .ok () := by
        rw [emptyContents_eq_ok_iff, emptyContents_eq_ok_iff, normalize_eq_null_iff,
          normalize_eq_empty_iff (each _ List.mem_cons_self)]
      simp [normalizeMembers, insertMember, empty]
    · constructor
      · rintro ⟨name, contents, same, _⟩
        rw [same] at length
        simp at length
      · rintro ⟨name, contents, same, _⟩
        simp at same
  | _ => simp [choice, refuse, Json.normalize]

end Decoder

/-! ## §3. Records. -/

namespace Fields

/-- The record with its values sorted, and its members as well when they are named. -/
def normalize (f : Fields) : Fields :=
  { f with
    contents := match f.contents with
      | .named members => .named (normalizeMembers members)
      | .listed items => .listed (normalizeItems items) }

/-- A record that a program can hold. -/
def IsProper (f : Fields) : Prop :=
  match f.contents with
  | .named members => (Json.object members).IsProper
  | .listed items => (Json.list items).IsProper

/-- The order of members makes no difference to what is built of the fields. -/
def IgnoresOrder {α : Type} (build : Fields → Reading α) : Prop :=
  ∀ ⦃f : Fields⦄ ⦃a : α⦄, f.IsProper → (build f.normalize = .done a ↔ build f = .done a)

variable {α β : Type} {d : Decoder α} {name : String}

theorem IgnoresOrder.map {build : Fields → Reading α} (h : IgnoresOrder build) (g : α → β) :
    IgnoresOrder fun f => g <$> build f := by
  intro f b proper
  rw [Reading.map_eq_done_iff, Reading.map_eq_done_iff]
  exact exists_congr fun a => and_congr_left fun _ => h proper

theorem IgnoresOrder.seq {front : Fields → Reading (α → β)} {build : Fields → Reading α}
    (first : IgnoresOrder front) (h : IgnoresOrder build) :
    IgnoresOrder fun f => front f <*> build f := by
  intro f b proper
  rw [Reading.seq_eq_done_iff, Reading.seq_eq_done_iff]
  refine exists_congr fun g => and_congr (first proper) (exists_congr fun a => ?_)
  exact and_congr_left fun _ => h proper

/-- What is read for a key of an object: its default, or what its decoder makes of the
value. -/
theorem field_named_eq_done_iff {members : List (String × Json)} {t : RecordType}
    {at_ : Standing} (distinct : (members.map (·.1)).Nodup) {absent unlisted : Option α} {a : α} :
    field ⟨t, at_, .named members⟩ name d absent unlisted = .done a ↔
      (members.lookup name = none ∧ absent = some a) ∨
        ∃ v, members.lookup name = some v ∧ d at_ v = .ok a := by
  rcases go_eq_lookup name distinct 0 with ⟨missing, none⟩ | ⟨v, j, there, once⟩
  · cases absent <;> simp [field, occurrences, none, missing]
  · cases read : d at_ v <;> simp [field, occurrences, once, there, read]

theorem field_listed_eq_done_iff {items : List Json} {t : RecordType} {at_ : Standing}
    {absent unlisted : Option α} {a : α} :
    field ⟨t, at_, .listed items⟩ name d absent unlisted = .done a ↔
      (items[t.fields.idxOf name]? = none ∧ unlisted = some a) ∨
        ∃ v, items[t.fields.idxOf name]? = some v ∧ d at_ v = .ok a := by
  cases there : items[t.fields.idxOf name]? with
  | none => cases unlisted <;> simp [field, position, there]
  | some v => simp [field, position, there, Reading.ofExcept_eq_done_iff]

/-- **Fields are looked up by key**, so it makes no difference where they stand. -/
theorem ignoresOrder_field (h : d.IgnoresOrder) {absent unlisted : Option α} :
    IgnoresOrder fun f => f.field name d absent unlisted := by
  rintro ⟨t, at_, members | items⟩ a proper
  · -- what stands under a key is the sorted value that stood there
    obtain ⟨distinct, each⟩ := isProper_object_iff.1 proper
    have ascending : ((normalizeMembers members).map (·.1)).Nodup :=
      pairwise_normalizeMembers.imp fun less => ne_of_lt less
    show field ⟨t, at_, .named (normalizeMembers members)⟩ name d absent unlisted = .done a ↔ _
    rw [field_named_eq_done_iff ascending, field_named_eq_done_iff distinct,
      lookup_normalizeMembers distinct]
    cases found : members.lookup name with
    | none => simp
    | some v =>
      have same : d at_ v.normalize = .ok a ↔ d at_ v = .ok a := h (each _ (mem_of_lookup found))
      simp [same]
  · -- a list keeps its order, and only its items are sorted
    have each := isProper_list_iff.1 proper
    show field ⟨t, at_, .listed (normalizeItems items)⟩ name d absent unlisted = .done a ↔ _
    rw [field_listed_eq_done_iff, field_listed_eq_done_iff, normalizeItems_eq_map,
      List.getElem?_map]
    cases there : items[t.fields.idxOf name]? with
    | none => simp
    | some v =>
      have same : d at_ v.normalize = .ok a ↔ d at_ v = .ok a :=
        h (each v (List.mem_of_getElem? there))
      simp [same]

theorem ignoresOrder_required (h : d.IgnoresOrder) : IgnoresOrder fun f => f.required name d :=
  ignoresOrder_field h

theorem ignoresOrder_optional (h : d.IgnoresOrder) : IgnoresOrder fun f => f.optional name d :=
  ignoresOrder_field (Decoder.ignoresOrder_nullable h)

end Fields

theorem RecordType.decode_list_eq_ok_iff {α : Type} {t : RecordType} {build : Fields → Reading α}
    {at_ : Standing} {items : List Json} {a : α} :
    t.decode build at_ (.list items) = .ok a ↔
      build ⟨t, at_, .listed items⟩ = .done a ∧ items.length ≤ t.fields.length := by
  cases read : build ⟨t, at_, .listed items⟩ with
  | fault rank cause => simp [decode, read, Reading.toExcept, bind, Except.bind]
  | done b =>
    by_cases long : t.fields.length < items.length
    · simp [decode, read, Reading.toExcept, bind, Except.bind, long, throw, throwThe,
        MonadExceptOf.throw]
    · simp [decode, read, Reading.toExcept, bind, Except.bind, long, pure, Except.pure,
        Nat.le_of_not_lt long]

/-- **A record is read the same in any order of its members.** -/
theorem RecordType.ignoresOrder_decode {α : Type} (t : RecordType) {build : Fields → Reading α}
    (h : Fields.IgnoresOrder build) : (t.decode build).IgnoresOrder := by
  intro at_ v a proper
  cases v with
  | object members =>
    show (build ⟨t, at_, .named (normalizeMembers members)⟩).toExcept = .ok a ↔
      (build ⟨t, at_, .named members⟩).toExcept = .ok a
    rw [Reading.toExcept_eq_ok_iff, Reading.toExcept_eq_ok_iff]
    exact h (f := ⟨t, at_, .named members⟩) proper
  | list items =>
    have same := h (f := ⟨t, at_, .listed items⟩) (a := a) proper
    rw [Json.normalize, decode_list_eq_ok_iff, decode_list_eq_ok_iff, normalizeItems_eq_map,
      List.length_map]
    rw [← normalizeItems_eq_map]
    exact and_congr_left fun _ => same
  | _ => simp [decode, Decoder.refuse, Json.normalize]

/-! ## §4. Tagged unions. -/

namespace UnionType

variable {u : UnionType} {at_ : Standing} {variant : String} {contents : Json}

theorem ignoresOrder_variant : u.variant.IgnoresOrder := by
  intro at_ v a proper
  cases v <;> simp [UnionType.variant, Decoder.refuse, Json.normalize]

/-- The tag of an object is looked up, and taken out. -/
theorem split_object_eq_ok_iff {members : List (String × Json)}
    (distinct : (members.map (·.1)).Nodup) :
    u.split at_ (.object members) = .ok (variant, contents) ↔
      ∃ tag, members.lookup u.tag = some tag ∧ u.variant at_ tag = .ok variant ∧
        contents = .object (without u.tag members) := by
  rcases Fields.go_eq_lookup u.tag distinct 0 with ⟨missing, none⟩ | ⟨tag, j, there, once⟩
  · simp [split, Fields.occurrences, none, missing]
  · cases named : u.variant at_ tag <;>
      simp [split, Fields.occurrences, once, there, named, bind, Except.bind, pure, Except.pure,
        without, eq_comm]

theorem split_list_eq_ok_iff {items : List Json} :
    u.split at_ (.list items) = .ok (variant, contents) ↔
      ∃ tag rest, items = tag :: rest ∧ u.variant at_ tag = .ok variant ∧
        contents = .list rest := by
  cases items with
  | nil => simp [split]
  | cons tag rest =>
    cases named : u.variant at_ tag <;>
      simp [split, named, bind, Except.bind, pure, Except.pure, eq_comm]

/-- What is behind the tag of a value that a program can hold is such a value, too. -/
theorem isProper_of_split {v : Json} (proper : v.IsProper)
    (h : u.split at_ v = .ok (variant, contents)) : contents.IsProper := by
  cases v with
  | object members =>
    obtain ⟨distinct, each⟩ := isProper_object_iff.1 proper
    obtain ⟨tag, _, _, rfl⟩ := (split_object_eq_ok_iff distinct).1 h
    exact isProper_object_iff.2
      ⟨keys_without distinct, fun m mem => each m (List.mem_filter.1 mem).1⟩
  | list items =>
    obtain ⟨tag, rest, rfl, _, rfl⟩ := split_list_eq_ok_iff.1 h
    exact isProper_list_iff.2 fun w mem =>
      isProper_list_iff.1 proper w (List.mem_cons_of_mem _ mem)
  | _ => cases h

/-- What is behind the tag is sorted when the value is. -/
theorem split_normalize {v : Json} (proper : v.IsProper) :
    u.split at_ v.normalize = .ok (variant, contents) ↔
      ∃ before, u.split at_ v = .ok (variant, before) ∧ contents = before.normalize := by
  cases v with
  | object members =>
    obtain ⟨distinct, each⟩ := isProper_object_iff.1 proper
    have ascending : ((normalizeMembers members).map (·.1)).Nodup :=
      pairwise_normalizeMembers.imp fun less => ne_of_lt less
    rw [Json.normalize, split_object_eq_ok_iff ascending, lookup_normalizeMembers distinct,
      without_normalizeMembers]
    simp only [split_object_eq_ok_iff distinct]
    -- the tag is found by its key, and what is left is sorted as before
    cases found : members.lookup u.tag with
    | none => simp
    | some tag =>
      have same : u.variant at_ tag.normalize = .ok variant ↔ u.variant at_ tag = .ok variant :=
        ignoresOrder_variant (each _ (mem_of_lookup found))
      simp [same, Json.normalize]
  | list items =>
    rw [Json.normalize, split_list_eq_ok_iff]
    simp only [split_list_eq_ok_iff]
    cases items with
    | nil => simp [normalizeItems]
    | cons tag rest =>
      have same : u.variant at_ tag.normalize = .ok variant ↔ u.variant at_ tag = .ok variant :=
        ignoresOrder_variant (isProper_list_iff.1 proper tag List.mem_cons_self)
      simp [same, Json.normalize, normalizeItems]
  | _ => simp [split, Decoder.refuse, Json.normalize]

/-- **A tagged union is read the same in any order of its members**, the tag among them,
when its variants are. -/
theorem ignoresOrder_tagged {α : Type} {variants : String → Decoder α}
    (each : ∀ name, (variants name).IgnoresOrder) :
    Decoder.IgnoresOrder fun at_ v => u.split at_ v >>= fun c => variants c.1 .held c.2 := by
  intro at_ v a proper
  -- what is read is split first, and then read by the variant
  have read : ∀ w, (u.split at_ w >>= fun c => variants c.1 .held c.2) = .ok a ↔
      ∃ variant contents, u.split at_ w = .ok (variant, contents) ∧
        variants variant .held contents = .ok a := by
    intro w
    cases u.split at_ w with
    | error cause => simp [bind, Except.bind]
    | ok c =>
      obtain ⟨name, behind⟩ := c
      simp [bind, Except.bind]
  rw [read, read]
  refine exists_congr fun variant => ?_
  constructor
  · rintro ⟨contents, tagged, read⟩
    obtain ⟨before, there, rfl⟩ := (split_normalize proper).1 tagged
    exact ⟨before, there, (each variant (isProper_of_split proper there)).1 read⟩
  · rintro ⟨before, there, read⟩
    exact ⟨before.normalize, (split_normalize proper).2 ⟨before, there, rfl⟩,
      (each variant (isProper_of_split proper there)).2 read⟩

end UnionType

end LiteratureReview
