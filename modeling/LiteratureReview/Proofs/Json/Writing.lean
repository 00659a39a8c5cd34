/-
  LiteratureReview.Proofs.Json.Writing
  ────────────────────────────────────
  Records that are read back from the way they are written.

  What is written of a record is a table of its fields, of which those that
  are missing are left out (`given`).  From the table one sees how deep the
  object is, that its keys are distinct, what its fields are read as
  (`required_given`, `optional_given`), and that a text may hold it
  (`Shape.holds_given`).
-/
import LiteratureReview.Json.Encoding
import LiteratureReview.Proofs.Json.Inversion
import LiteratureReview.Proofs.Json.Ordering
import LiteratureReview.Proofs.Json.Shaped

namespace LiteratureReview

open Json

namespace Json

/-! ## §1. Tables of fields. -/

/-- The members of a table of fields: those that are there. -/
def given (table : List (String × Option Json)) : List (String × Json) :=
  table.filterMap fun field => field.2.map fun v => (field.1, v)

theorem member_eq_given (key : String) (v : Json) : member key v = given [(key, some v)] := rfl

theorem memberIf_eq_given {α : Type} (key : String) (write : α → Json) (o : Option α) :
    memberIf key write o = given [(key, o.map write)] := by
  cases o <;> rfl

theorem given_append (front back : List (String × Option Json)) :
    given (front ++ back) = given front ++ given back :=
  List.filterMap_append

variable {table : List (String × Option Json)}

theorem mem_given_iff {m : String × Json} : m ∈ given table ↔ (m.1, some m.2) ∈ table := by
  unfold given
  rw [List.mem_filterMap]
  constructor
  · intro ⟨field, mem, same⟩
    obtain ⟨v, there, rfl⟩ := Option.map_eq_some_iff.1 same
    rw [← there]
    exact mem
  · intro mem
    exact ⟨_, mem, rfl⟩

theorem keys_given_sublist : ((given table).map (·.1)).Sublist (table.map (·.1)) := by
  induction table with
  | nil => exact List.Sublist.slnil
  | cons field rest ih =>
    obtain ⟨key, o⟩ := field
    cases o with
    | none => exact List.Sublist.cons _ ih
    | some v => exact List.Sublist.cons_cons _ ih

theorem keys_given_nodup (distinct : (table.map (·.1)).Nodup) :
    ((given table).map (·.1)).Nodup :=
  distinct.sublist keys_given_sublist

/-- What stands under a key is what the table has for it. -/
theorem lookup_given (distinct : (table.map (·.1)).Nodup) {key : String} {o : Option Json}
    (found : table.lookup key = some o) : (given table).lookup key = o := by
  induction table with
  | nil => cases found
  | cons field rest ih =>
    obtain ⟨k, written⟩ := field
    rw [List.map_cons, List.nodup_cons] at distinct
    by_cases same : key = k
    · subst same
      rw [List.lookup_cons, beq_self_eq_true] at found
      obtain rfl : written = o := Option.some.inj found
      cases written with
      | some v =>
        show List.lookup key ((key, v) :: given rest) = some v
        rw [List.lookup_cons, beq_self_eq_true]
      | none =>
        -- the key does not occur again
        refine List.lookup_eq_none_iff.2 fun m mem => ?_
        rw [bne_iff_ne]
        intro same
        have later : (m.1, some m.2) ∈ rest := mem_given_iff.1 mem
        exact distinct.1 (List.mem_map.2 ⟨_, later, same.symm⟩)
    · rw [List.lookup_cons, beq_false_of_ne same] at found
      have later := ih distinct.2 found
      cases written with
      | none => exact later
      | some v =>
        show List.lookup key ((k, v) :: given rest) = o
        rw [List.lookup_cons, beq_false_of_ne same]
        exact later

/-- What stands under a key stays there when the members are sorted. -/
theorem get?_written (distinct : (table.map (·.1)).Nodup) {key : String} {o : Option Json}
    (found : table.lookup key = some o) :
    (Json.object (given table)).normalize.get? key = o.map normalize := by
  rw [← lookup_given distinct found]
  exact lookup_normalizeMembers (keys_given_nodup distinct) key

/-- What is there of a field meets a condition. -/
def Meets (P : Json → Prop) (field : String × Option Json) : Prop :=
  ∀ v, field.2 = some v → P v

theorem meets_required (key : String) {P : Json → Prop} {v : Json} (h : P v) :
    Meets P (key, some v) := by
  intro w same
  exact Option.some.inj same ▸ h

theorem meets_optional {α : Type} (key : String) {P : Json → Prop} {write : α → Json}
    {o : Option α} (h : ∀ a, o = some a → P (write a)) : Meets P (key, o.map write) := by
  intro w same
  obtain ⟨a, there, rfl⟩ := Option.map_eq_some_iff.1 same
  exact h a there

theorem isProper_given (distinct : (table.map (·.1)).Nodup)
    (each : ∀ field ∈ table, Meets IsProper field) : (Json.object (given table)).IsProper := by
  refine isProper_object_iff.2 ⟨keys_given_nodup distinct, fun m mem => ?_⟩
  exact each _ (mem_given_iff.1 mem) m.2 rfl

theorem depth_given_le {n : Nat} (each : ∀ field ∈ table, Meets (·.depth ≤ n) field) :
    (Json.object (given table)).depth ≤ n + 1 := by
  rw [depth]
  refine Nat.succ_le_succ (depthMembers_le fun m mem => ?_)
  exact each _ (mem_given_iff.1 mem) m.2 rfl

theorem depth_field_lt {key : String} {v : Json} (mem : (key, some v) ∈ table) :
    v.depth < (Json.object (given table)).depth :=
  depth_member_lt (m := (key, v)) (mem_given_iff.2 mem)

/-- Without the tag in front, the other members are left. -/
theorem without_given {tag : String} {v : Option Json} (new : tag ∉ table.map (·.1)) :
    without tag (given ((tag, v) :: table)) = given table := by
  have others : without tag (given table) = given table := by
    refine List.filter_eq_self.2 fun m mem => ?_
    rw [bne_iff_ne]
    intro same
    exact new (List.mem_map.2 ⟨_, mem_given_iff.1 mem, same⟩)
  cases v with
  | none => exact others
  | some v =>
    show without tag ((tag, v) :: given table) = given table
    unfold without at others ⊢
    rw [List.filter_cons_of_neg (by simp), others]

/-- A list is deeper than its elements. -/
theorem depth_listOf_le {α : Type} {write : α → Json} {items : List α} {n : Nat}
    (each : ∀ a ∈ items, (write a).depth ≤ n) : (listOf write items).depth ≤ n + 1 := by
  unfold listOf
  rw [depth]
  refine Nat.succ_le_succ (depthItems_le fun v mem => ?_)
  obtain ⟨a, there, rfl⟩ := List.mem_map.1 mem
  exact each a there

end Json

/-! ## §2. Fields. -/

namespace Fields

variable {α : Type} {t : RecordType} {at_ : Standing} {table : List (String × Option Json)}
  {d : Decoder α}

theorem required_given (name : String) (distinct : (table.map (·.1)).Nodup) {v : Json} {a : α}
    (found : table.lookup name = some (some v)) (read : d at_ v = .ok a) :
    required ⟨t, at_, .named (given table)⟩ name d = .done a :=
  field_of_lookup (keys_given_nodup distinct) (lookup_given distinct found) read

theorem optional_given (name : String) (distinct : (table.map (·.1)).Nodup) {write : α → Json}
    {o : Option α} (found : table.lookup name = some (o.map write))
    (read : ∀ a, o = some a → write a ≠ .null ∧ d at_ (write a) = .ok a) :
    optional ⟨t, at_, .named (given table)⟩ name d = .done o := by
  have keys := keys_given_nodup distinct
  have there := lookup_given distinct found
  cases o with
  | none => exact field_of_absent keys there
  | some a =>
    obtain ⟨present, read⟩ := read a rfl
    refine field_of_lookup keys there ?_
    cases written : write a with
    | null => exact absurd written present
    | _ =>
      rw [written] at read
      show (d at_ _).map some = _
      rw [read]
      rfl

end Fields

/-- The variant of a tagged union, and what is written behind its tag. -/
theorem UnionType.split_given (u : UnionType) (at_ : Standing) {name : String}
    {table : List (String × Option Json)} (known : name ∈ u.variants)
    (distinct : (((u.tag, some (.text name)) :: table).map (·.1)).Nodup) :
    u.split at_ (.object (given ((u.tag, some (.text name)) :: table))) =
      .ok (name, .object (given table)) := by
  have found : ((u.tag, some (Json.text name)) :: table).lookup u.tag = some (some (.text name)) :=
    by rw [List.lookup_cons, beq_self_eq_true]
  rw [u.split_object at_ (keys_given_nodup distinct) (lookup_given distinct found) known,
    without_given (List.nodup_cons.1 distinct).1]

/-! ## §3. Shapes. -/

namespace Shape

/-- A field of a table stands for a field of a record: it is held by its shape, or may
be left out. -/
def Fills (field : String × Option Json) (declared : String × Bool × Shape) : Prop :=
  field.1 = declared.1 ∧
    match field.2 with
    | some v => declared.2.2.Holds v
    | none => declared.2.1 = true ∨ declared.2.2.acceptsNull = true

theorem fills_required (name : String) {shape : Shape} {v : Json} (h : shape.Holds v) :
    Fills (name, some v) (Shape.required name shape) :=
  ⟨rfl, h⟩

theorem fills_optional {α : Type} (name : String) {shape : Shape} {write : α → Json}
    {o : Option α} (given : shape.acceptsNull = false)
    (h : ∀ a, o = some a → write a ≠ .null ∧ shape.Holds (write a)) :
    Fills (name, o.map write) (Shape.optional name shape) := by
  refine ⟨rfl, ?_⟩
  cases o with
  | none => exact .inl rfl
  | some a =>
    obtain ⟨present, holds⟩ := h a rfl
    exact holds_nullable given present holds

section Filled

variable {fields : List (String × Bool × Shape)} {table : List (String × Option Json)}

/-- A field of the table is declared under its key. -/
theorem exists_fills_of_mem {key : String} {o : Option Json}
    (distinct : (table.map (·.1)).Nodup) (h : List.Forall₂ Fills table fields)
    (mem : (key, o) ∈ table) :
    ∃ mayEnd shape, fields.lookup key = some (mayEnd, shape) ∧
      Fills (key, o) (key, mayEnd, shape) := by
  induction h with
  | nil => cases mem
  | @cons field f rest others first _ ih =>
    obtain ⟨name, mayEnd, shape⟩ := f
    obtain rfl : field.1 = name := first.1
    rw [List.map_cons, List.nodup_cons] at distinct
    rcases List.mem_cons.1 mem with rfl | later
    · exact ⟨mayEnd, shape, by rw [List.lookup_cons, beq_self_eq_true], first⟩
    · have other : key ≠ field.1 := by
        intro same
        exact distinct.1 (List.mem_map.2 ⟨_, later, same⟩)
      obtain ⟨mayEnd, shape, found, fills⟩ := ih distinct.2 later
      exact ⟨mayEnd, shape, by rw [List.lookup_cons, beq_false_of_ne other, found], fills⟩

/-- What the record declares is filled from the table. -/
theorem exists_mem_fills (h : List.Forall₂ Fills table fields) {f : String × Bool × Shape}
    (mem : f ∈ fields) : ∃ field ∈ table, Fills field f := by
  induction h with
  | nil => cases mem
  | cons fills _ ih =>
    rcases List.mem_cons.1 mem with rfl | later
    · exact ⟨_, List.mem_cons_self, fills⟩
    · obtain ⟨field, there, fills⟩ := ih later
      exact ⟨field, List.mem_cons_of_mem _ there, fills⟩

/-- What the record may not leave out is given. -/
theorem mem_keys_given_of_fills (h : List.Forall₂ Fills table fields)
    {f : String × Bool × Shape} (mem : f ∈ fields) :
    f.2.1 = true ∨ f.2.2.acceptsNull = true ∨ f.1 ∈ (given table).map (·.1) := by
  obtain ⟨⟨key, o⟩, there, fills⟩ := exists_mem_fills h mem
  cases o with
  | none => exact fills.2.imp_right .inl
  | some v => exact .inr (.inr (List.mem_map.2 ⟨(key, v), mem_given_iff.2 there, fills.1⟩))

/-- **A text may hold a record** when its fields are filled one after the other. -/
theorem holds_given {type : RecordType} (distinct : (table.map (·.1)).Nodup)
    (h : List.Forall₂ Fills table fields) :
    (Shape.record type fields).Holds (.object (given table)) := by
  refine holds_record (keys_given_nodup distinct) (fun m mem => ?_)
    fun f mem => mem_keys_given_of_fills h mem
  obtain ⟨mayEnd, shape, found, fills⟩ := exists_fills_of_mem distinct h (mem_given_iff.1 mem)
  exact ⟨mayEnd, shape, found, fills.2⟩

end Filled

theorem holds_listOf {α : Type} {item : Shape} {write : α → Json} {items : List α}
    (each : ∀ a ∈ items, item.Holds (write a)) : (Shape.list item).Holds (listOf write items) := by
  refine holds_list fun v mem => ?_
  obtain ⟨a, there, rfl⟩ := List.mem_map.1 mem
  exact each a there

theorem holds_u32 (n : UInt32) : Shape.u32.Holds (Json.u32 n) := by
  have limit : (Decimal.twoTo 32 : Int) = 4294967296 := by decide
  have low : (Decimal.twoTo 63 : Int) = 9223372036854775808 := by decide
  have high : (Decimal.twoTo 64 : Int) = 18446744073709551616 := by decide
  have small := n.toNat_lt
  refine holds_number ?_ ?_
  · simp only [Number.isProper, low, high, Bool.and_eq_true, decide_eq_true_eq]
    omega
  · have inside : 0 ≤ (n.toNat : Int) ∧ (n.toNat : Int) ≤ Decimal.twoTo 32 - 1 := by
      rw [limit]
      omega
    simp only [Decoder.integerOf, if_pos inside]
    rfl

theorem holds_i64 (i : Int64) : Shape.i64.Holds (Json.i64 i) := by
  have low : (Decimal.twoTo 63 : Int) = 9223372036854775808 := by decide
  have high : (Decimal.twoTo 64 : Int) = 18446744073709551616 := by decide
  have above := i.le_toInt
  have below := i.toInt_lt
  refine holds_number ?_ ?_
  · simp only [Number.isProper, low, high, Bool.and_eq_true, decide_eq_true_eq]
    omega
  · have inside : -(Decimal.twoTo 63 : Int) ≤ i.toInt ∧ i.toInt ≤ Decimal.twoTo 63 - 1 := by
      rw [low]
      omega
    simp only [Decoder.integerOf, if_pos inside]
    rfl

theorem holds_double {x : Decimal.Double} (finite : x.isFinite = true) :
    Shape.double.Holds (Json.double x) :=
  holds_number finite rfl

end Shape

/-! ## §4. Scalars and lists. -/

namespace Decoder

variable {α : Type} {at_ : Standing}

/-- A list is written no deeper than it was read, when its items are. -/
theorem depth_listOf_le {d : Decoder α} {write : α → Json} {v : Json} {items : List α}
    (h : list d at_ v = .ok items)
    (each : ∀ w a, w ∈ v.parts → d at_ w = .ok a → (write a).depth ≤ w.depth) :
    (listOf write items).depth ≤ v.depth := by
  obtain ⟨given, rfl⟩ : ∃ given, v = .list given := by
    cases v with
    | list given => exact ⟨given, rfl⟩
    | _ => cases h
  refine Json.depth_listOf_le fun a mem => ?_
  obtain ⟨w, part, read⟩ := exists_item_of_list h a mem
  exact (each w a part read).trans (depth_le_depthItems part)

theorem list_listOf {d : Decoder α} {write : α → Json} {items : List α}
    (each : ∀ a ∈ items, d at_ (write a) = .ok a) :
    list d at_ (listOf write items) = .ok items := by
  show (items.map write).mapM (d at_) = .ok items
  have all : items.mapM (d at_ ∘ write) = .ok (items.map id) := mapM_eq_ok_map each
  rw [List.mapM_map, all, List.map_id]

theorem u32_encode (n : UInt32) : Decoder.u32 at_ (Json.u32 n) = .ok n := by
  have limit : (Decimal.twoTo 32 : Int) = 4294967296 := by decide
  have small := n.toNat_lt
  have inside : 0 ≤ (n.toNat : Int) ∧ (n.toNat : Int) ≤ Decimal.twoTo 32 - 1 := by
    rw [limit]
    omega
  simp only [Decoder.u32, Json.u32, nat, integer, integerOf, if_pos inside, Except.map,
    Int.toNat_natCast, UInt32.ofNat_toNat]

theorem i64_encode (i : Int64) : Decoder.i64 at_ (Json.i64 i) = .ok i.toInt := by
  have low : (Decimal.twoTo 63 : Int) = 9223372036854775808 := by decide
  have above := i.le_toInt
  have below := i.toInt_lt
  have inside : -(Decimal.twoTo 63 : Int) ≤ i.toInt ∧ i.toInt ≤ Decimal.twoTo 63 - 1 := by
    rw [low]
    omega
  simp only [Decoder.i64, Json.i64, integer, integerOf, if_pos inside]

/-- A name is read by the table of its spellings. -/
theorem choice_text {table : List (String × α)} {name : String} {a : α}
    (known : table.lookup name = some a) : choice table at_ (.text name) = .ok a := by
  simp only [choice, ofName, known]

end Decoder

end LiteratureReview
