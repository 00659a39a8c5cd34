/-
  LiteratureReview.Proofs.Extraction.Preorder
  ───────────────────────────────────────────
  The list of a flattened forest beside the addresses of its categories.

  An address is the number of a root, then at each level that of a child; as
  texts are, addresses are ordered by their first difference, and one that is
  continued comes before its continuations.  That is the pre-order:

    • `mem_addressesFrom_iff`, `pairwise_addressesFrom` — the addresses of all
      categories, ascending,
    • `describes_of_mem`, `hangs_of_mem` — what the entry at an address says of
      the category there and of the one above,
    • `inPreorder_located` — both together, with the children of every entry.
-/
import LiteratureReview.Proofs.Extraction.Flatten
import Mathlib.Data.List.Sort

namespace LiteratureReview

/-! ## §1. Addresses. -/

namespace Category

/-- The category that is reached from another through children of these numbers. -/
def below? : List Nat → Category → Option Category
  | [], c => some c
  | k :: rest, c => c.subCategories[k]?.bind (below? rest)

/-- The category at an address of a forest. -/
def find? (cs : List Category) : List Nat → Option Category
  | [] => none
  | k :: rest => cs[k]?.bind (below? rest)

mutual

/-- The addresses below a category, its own first. -/
def addresses : Category → List (List Nat)
  | .node _ _ (some children) => [] :: addressesFrom 0 children
  | .node _ _ none => [[]]

/-- The addresses of a forest whose roots are numbered from `first`. -/
def addressesFrom (first : Nat) : List Category → List (List Nat)
  | [] => []
  | c :: rest => (addresses c).map (first :: ·) ++ addressesFrom (first + 1) rest

end

theorem below?_append (a b : List Nat) (c : Category) :
    below? (a ++ b) c = (below? a c).bind (below? b) := by
  induction a generalizing c with
  | nil => rfl
  | cons k rest ih =>
    simp only [List.cons_append, below?, Option.bind_assoc]
    exact congrArg _ (funext ih)

theorem find?_append {cs : List Category} {a : List Nat} (inside : a ≠ []) (b : List Nat) :
    find? cs (a ++ b) = (find? cs a).bind (below? b) := by
  cases a with
  | nil => exact absurd rfl inside
  | cons k rest =>
    simp only [List.cons_append, find?, Option.bind_assoc]
    exact congrArg _ (funext (below?_append rest b))

/-- The children of the category at an address are at its continuations by one number. -/
theorem find?_child {cs : List Category} {a : List Nat} {c : Category} (there : find? cs a = some c)
    (k : Nat) : find? cs (a ++ [k]) = c.subCategories[k]? := by
  have inside : a ≠ [] := by
    rintro rfl
    cases there
  rw [find?_append inside, there]
  show c.subCategories[k]?.bind (below? []) = _
  cases c.subCategories[k]? <;> rfl

mutual

/-- A category has an address for each that can be reached. -/
theorem mem_addresses_iff {a : List Nat} :
    ∀ {c : Category}, a ∈ addresses c ↔ ∃ e, below? a c = some e
  | .node h k none => by
    rw [addresses, List.mem_singleton]
    constructor
    · rintro rfl
      exact ⟨_, rfl⟩
    · rintro ⟨e, there⟩
      cases a with
      | nil => rfl
      | cons i rest => cases there
  | .node h k (some children) => by
    rw [addresses, List.mem_cons, mem_addressesFrom_iff]
    constructor
    · rintro (rfl | ⟨i, b, c, rfl, child, there⟩)
      · exact ⟨_, rfl⟩
      · rw [Nat.zero_add, below?]
        exact there.imp fun e reached => Option.bind_eq_some_iff.2 ⟨c, child, reached⟩
    · rintro ⟨e, there⟩
      cases a with
      | nil => exact .inl rfl
      | cons i rest =>
        obtain ⟨c, child, reached⟩ := Option.bind_eq_some_iff.1 there
        exact .inr ⟨i, rest, c, by rw [Nat.zero_add], child, e, reached⟩

theorem mem_addressesFrom_iff {a : List Nat} {first : Nat} :
    ∀ {cs : List Category}, a ∈ addressesFrom first cs ↔
      ∃ i b c, a = (first + i) :: b ∧ cs[i]? = some c ∧ ∃ e, below? b c = some e
  | [] => by
    rw [addressesFrom]
    exact ⟨nofun, fun ⟨i, b, c, _, root, _⟩ => by cases root⟩
  | c :: rest => by
    rw [addressesFrom, List.mem_append, List.mem_map, mem_addressesFrom_iff]
    constructor
    · rintro (⟨b, mem, rfl⟩ | ⟨i, b, d, rfl, root, there⟩)
      · exact ⟨0, b, c, rfl, rfl, mem_addresses_iff.1 mem⟩
      · exact ⟨i + 1, b, d, by rw [Nat.add_right_comm, Nat.add_assoc], root, there⟩
    · rintro ⟨i, b, d, rfl, root, there⟩
      cases i with
      | zero =>
        cases root
        exact .inl ⟨b, mem_addresses_iff.2 there, rfl⟩
      | succ i => exact .inr ⟨i, b, d, by rw [Nat.add_right_comm, Nat.add_assoc], root, there⟩

end

/-- A forest has an address for each category that can be found. -/
theorem mem_addressesFrom_zero_iff {a : List Nat} {cs : List Category} :
    a ∈ addressesFrom 0 cs ↔ ∃ e, find? cs a = some e := by
  rw [mem_addressesFrom_iff]
  constructor
  · rintro ⟨i, b, c, rfl, root, there⟩
    rw [Nat.zero_add, find?, root]
    exact there
  · rintro ⟨e, there⟩
    cases a with
    | nil => cases there
    | cons i b =>
      obtain ⟨c, root, reached⟩ := Option.bind_eq_some_iff.1 there
      exact ⟨i, b, c, by rw [Nat.zero_add], root, e, reached⟩

mutual

theorem pairwise_addresses : ∀ c : Category, (addresses c).Pairwise (· < ·)
  | .node h k none => List.pairwise_singleton _ _
  | .node h k (some children) => by
    rw [addresses, List.pairwise_cons]
    refine ⟨fun a mem => ?_, pairwise_addressesFrom 0 children⟩
    obtain ⟨i, b, c, rfl, -⟩ := mem_addressesFrom_iff.1 mem
    exact List.nil_lt_cons _ _

/-- Addresses ascend: those below a root come before the next root. -/
theorem pairwise_addressesFrom (first : Nat) :
    ∀ cs : List Category, (addressesFrom first cs).Pairwise (· < ·)
  | [] => List.Pairwise.nil
  | c :: rest => by
    rw [addressesFrom, List.pairwise_append]
    refine ⟨?_, pairwise_addressesFrom (first + 1) rest, fun a left b right => ?_⟩
    · rw [List.pairwise_map]
      exact (pairwise_addresses c).imp fun less => List.cons_lt_cons_iff.2 (.inr ⟨rfl, less⟩)
    · obtain ⟨a, -, rfl⟩ := List.mem_map.1 left
      obtain ⟨i, b, d, rfl, -⟩ := mem_addressesFrom_iff.1 right
      exact List.cons_lt_cons_iff.2 (.inl (by omega))

end

mutual

theorem length_addresses : ∀ c : Category, (addresses c).length = c.nodeCount
  | .node h k none => by
    rw [addresses, nodeCount]
    rfl
  | .node h k (some children) => by
    rw [addresses, nodeCount, List.length_cons, length_addressesFrom]

theorem length_addressesFrom (first : Nat) :
    ∀ cs : List Category, (addressesFrom first cs).length = nodeCounts cs
  | [] => by
    rw [addressesFrom, nodeCounts]
    rfl
  | c :: rest => by
    rw [addressesFrom, nodeCounts, List.length_append, List.length_map, length_addresses,
      length_addressesFrom]

end

end Category

/-! ## §2. Entries beside addresses. -/

open Category

/-- What an entry says of the settings of its category; the ones its kind does not have are left
out. -/
def FieldDescriptor.HasSettings (d : FieldDescriptor) : CategoryKind → Prop
  | .simple type maxChar pattern initialValue =>
    d.kind.name = type.name ∧ d.config.maxChar = maxChar ∧ d.config.pattern = pattern ∧
      d.config.initialValue = initialValue ∧ d.config.values = none ∧
        d.config.dynamicSubtype = none ∧ d.config.initialValues = none ∧
          d.config.referenceName = none ∧ d.config.dependsOn = none
  | .list values =>
    d.kind.name = "list" ∧ d.config.values = some (values.map fun e => e.name.text) ∧
      d.config.maxChar = none ∧ d.config.pattern = none ∧ d.config.initialValue = none ∧
        d.config.dynamicSubtype = none ∧ d.config.initialValues = none ∧
          d.config.referenceName = none ∧ d.config.dependsOn = none
  | .independent referenceName initialValues =>
    d.kind.name = "dynamic_list" ∧ d.config.dynamicSubtype = some "Independent" ∧
      d.config.initialValues = some (initialValues.map fun e => e.name.text) ∧
        d.config.referenceName = referenceName ∧ d.config.dependsOn = none ∧
          d.config.maxChar = none ∧ d.config.pattern = none ∧ d.config.initialValue = none ∧
            d.config.values = none
  | .dependent dependsOn =>
    d.kind.name = "dynamic_list" ∧ d.config.dynamicSubtype = some "Dependent" ∧
      d.config.dependsOn = some dependsOn.text ∧ d.config.initialValues = none ∧
        d.config.referenceName = none ∧ d.config.maxChar = none ∧ d.config.pattern = none ∧
          d.config.initialValue = none ∧ d.config.values = none

/-- An entry says what its category is. -/
structure FieldDescriptor.Describes (d : FieldDescriptor) (c : Category) : Prop where
  name : d.name = c.name.text
  label : d.label = c.head.title.getD c.name.text
  isRequired : d.isRequired = c.head.mandatory
  mandatory : d.config.mandatory = c.head.mandatory
  numberOfValues : d.config.numberOfValues = c.head.numberOfValues
  settings : d.HasSettings c.kind

/-- An entry belongs to another. -/
def FieldDescriptor.HangsUnder (d e : FieldDescriptor) : Prop :=
  d.parentIndex = some e.order ∧ d.config.parent = some e.name

theorem describes_describe (c : Category) (order : Nat) (parentIndex : Option Nat)
    (parent : Option String) : (describe c order parentIndex parent).Describes c := by
  obtain ⟨h, k, children⟩ := c
  refine ⟨rfl, rfl, rfl, ?_, ?_, ?_⟩
  · cases k <;> rfl
  · cases k <;> rfl
  · cases k with
    | simple type =>
      have kind : (FieldKind.ofScalar type).name = type.name := by cases type <;> rfl
      exact ⟨kind, rfl, rfl, rfl, rfl, rfl, rfl, rfl, rfl⟩
    | _ => exact ⟨rfl, rfl, rfl, rfl, rfl, rfl, rfl, rfl, rfl⟩

theorem parent_describe (c : Category) (order : Nat) (parentIndex : Option Nat)
    (parent : Option String) : (describe c order parentIndex parent).config.parent = parent := by
  obtain ⟨h, k, children⟩ := c
  cases k <;> rfl

variable {start first : Nat} {parentIndex : Option Nat} {parent : Option String}

/-- The entries of a tree beside the addresses below its root. -/
def locatedTree (start : Nat) (parentIndex : Option Nat) (parent : Option String) (c : Category) :
    List (List Nat × FieldDescriptor) :=
  (addresses c).zip (flattenTree start parentIndex parent c)

/-- The entries of a forest beside their addresses, its roots numbered from `first`. -/
def locatedForest (first start : Nat) (parentIndex : Option Nat) (parent : Option String)
    (cs : List Category) : List (List Nat × FieldDescriptor) :=
  (addressesFrom first cs).zip (flattenForest start parentIndex parent cs)

theorem length_flattenTree (c : Category) :
    (flattenTree start parentIndex parent c).length = c.nodeCount := by
  rw [← List.length_map (·.order), orders_flattenTree, List.length_range']

theorem length_flattenForest (cs : List Category) :
    (flattenForest start parentIndex parent cs).length = nodeCounts cs := by
  rw [← List.length_map (·.order), orders_flattenForest, List.length_range']

theorem locatedTree_none {h : CategoryHead} {k : CategoryKind} :
    locatedTree start parentIndex parent (.node h k none) =
      [([], describe (.node h k none) start parentIndex parent)] := by
  rw [locatedTree, addresses, flattenTree]
  rfl

theorem locatedTree_some {h : CategoryHead} {k : CategoryKind} {children : List Category} :
    locatedTree start parentIndex parent (.node h k (some children)) =
      ([], describe (.node h k (some children)) start parentIndex parent)
        :: locatedForest 0 (start + 1) (some start) (some h.name.text) children := by
  rw [locatedTree, addresses, flattenTree]
  rfl

theorem locatedForest_cons {c : Category} {rest : List Category} :
    locatedForest first start parentIndex parent (c :: rest) =
      (locatedTree start parentIndex parent c).map (Prod.map (first :: ·) id)
        ++ locatedForest (first + 1) (start + c.nodeCount) parentIndex parent rest := by
  have same : ((addresses c).map (first :: ·)).length =
      (flattenTree start parentIndex parent c).length := by
    rw [List.length_map, length_addresses, length_flattenTree]
  rw [locatedForest, addressesFrom, flattenForest, List.zip_append same, List.zip_map_left]
  rfl

mutual

theorem describes_of_mem_tree {start : Nat} {parentIndex : Option Nat} {parent : Option String}
    {a : List Nat} {d : FieldDescriptor} :
    ∀ {c : Category}, (a, d) ∈ locatedTree start parentIndex parent c →
      ∃ e, below? a c = some e ∧ d.Describes e
  | .node h k none, mem => by
    rw [locatedTree_none, List.mem_singleton] at mem
    cases mem
    exact ⟨_, rfl, describes_describe ..⟩
  | .node h k (some children), mem => by
    rw [locatedTree_some] at mem
    rcases List.mem_cons.1 mem with root | later
    · cases root
      exact ⟨_, rfl, describes_describe ..⟩
    · obtain ⟨i, b, rfl, e, there, describes⟩ := describes_of_mem_forest later
      rw [Nat.zero_add]
      exact ⟨e, there, describes⟩

/-- The entry at an address describes the category there. -/
theorem describes_of_mem_forest {first start : Nat} {parentIndex : Option Nat}
    {parent : Option String} {a : List Nat} {d : FieldDescriptor} :
    ∀ {cs : List Category}, (a, d) ∈ locatedForest first start parentIndex parent cs →
      ∃ i b, a = (first + i) :: b ∧ ∃ e, find? cs (i :: b) = some e ∧ d.Describes e
  | [], mem => by
    rw [locatedForest, addressesFrom] at mem
    cases mem
  | c :: rest, mem => by
    rw [locatedForest_cons, List.mem_append] at mem
    rcases mem with here | later
    · obtain ⟨⟨b, e⟩, inside, same⟩ := List.mem_map.1 here
      cases same
      exact ⟨0, b, rfl, describes_of_mem_tree inside⟩
    · obtain ⟨i, b, rfl, found⟩ := describes_of_mem_forest later
      exact ⟨i + 1, b, by rw [Nat.add_right_comm, Nat.add_assoc], found⟩

end

mutual

theorem hangs_of_mem_tree {start : Nat} {parentIndex : Option Nat} {parent : Option String}
    {a : List Nat} {d : FieldDescriptor} :
    ∀ {c : Category}, (a, d) ∈ locatedTree start parentIndex parent c →
      (a = [] ∧ d.parentIndex = parentIndex ∧ d.config.parent = parent) ∨
        ∃ b k e, a = b ++ [k] ∧ (b, e) ∈ locatedTree start parentIndex parent c ∧ d.HangsUnder e
  | .node h k none, mem => by
    rw [locatedTree_none, List.mem_singleton] at mem
    cases mem
    exact .inl ⟨rfl, rfl, parent_describe ..⟩
  | .node h k (some children), mem => by
    rw [locatedTree_some] at mem ⊢
    rcases List.mem_cons.1 mem with root | later
    · cases root
      exact .inl ⟨rfl, rfl, parent_describe ..⟩
    -- a root of the children hangs under this category, all others under one of them
    · rcases hangs_of_mem_forest later with ⟨i, rfl, index, name⟩ | ⟨b, i, e, rfl, above, hangs⟩
      · exact .inr ⟨[], i, _, rfl, List.mem_cons_self, index, name⟩
      · exact .inr ⟨b, i, e, rfl, List.mem_cons_of_mem _ above, hangs⟩

/-- An entry that is not one of a root hangs under the one at the address without its last
number. -/
theorem hangs_of_mem_forest {first start : Nat} {parentIndex : Option Nat} {parent : Option String}
    {a : List Nat} {d : FieldDescriptor} :
    ∀ {cs : List Category}, (a, d) ∈ locatedForest first start parentIndex parent cs →
      (∃ i, a = [i] ∧ d.parentIndex = parentIndex ∧ d.config.parent = parent) ∨
        ∃ b k e, a = b ++ [k] ∧ (b, e) ∈ locatedForest first start parentIndex parent cs ∧
          d.HangsUnder e
  | [], mem => by
    rw [locatedForest, addressesFrom] at mem
    cases mem
  | c :: rest, mem => by
    rw [locatedForest_cons, List.mem_append] at mem
    simp only [locatedForest_cons, List.mem_append]
    rcases mem with here | later
    · obtain ⟨⟨b, e⟩, inside, same⟩ := List.mem_map.1 here
      cases same
      rcases hangs_of_mem_tree inside with ⟨rfl, root⟩ | ⟨b, k, e, rfl, above, hangs⟩
      · exact .inl ⟨first, rfl, root⟩
      · exact .inr ⟨first :: b, k, e, rfl, .inl (List.mem_map.2 ⟨(b, e), above, rfl⟩), hangs⟩
    · rcases hangs_of_mem_forest later with root | ⟨b, k, e, same, above, hangs⟩
      · exact .inl root
      · exact .inr ⟨b, k, e, same, .inr above, hangs⟩

end

/-! ## §3. The whole list. -/

variable {a : List Nat} {d : FieldDescriptor}

/-- The entries of a forest beside their addresses. -/
def located (cs : List Category) : List (List Nat × FieldDescriptor) :=
  locatedForest 0 0 none none cs

/-- Entries beside addresses are a forest in pre-order. -/
structure InPreorder (cs : List Category) (entries : List (List Nat × FieldDescriptor)) :
    Prop where
  /-- Each category comes before those below it, and with these before what is to its right. -/
  ascending : (entries.map (·.1)).Pairwise (· < ·)
  /-- There is an entry for each category, -/
  addressed : ∀ a, a ∈ entries.map (·.1) ↔ ∃ c, find? cs a = some c
  /-- which says what it is, -/
  described : ∀ a d, (a, d) ∈ entries → ∃ c, find? cs a = some c ∧ d.Describes c
  /-- and knows its place. -/
  numbered : ∀ i a (d : FieldDescriptor), entries[i]? = some (a, d) → d.order = i
  roots : ∀ k d, ([k], d) ∈ entries → d.parentIndex = none ∧ d.config.parent = none
  /-- Entries of other categories know the place and the name of the one above. -/
  hanging : ∀ a k d, a ≠ [] → (a ++ [k], d) ∈ entries →
    ∃ e, (a, e) ∈ entries ∧ e.order < d.order ∧ d.HangsUnder e
  /-- What hangs under an entry are the children of its category, from the first to the last. -/
  children : ∀ a (d : FieldDescriptor) c, (a, d) ∈ entries → find? cs a = some c →
    (entries.filter fun e => e.2.parentIndex = some d.order).map (·.1) =
      (List.range c.subCategories.length).map (a ++ [·])

theorem map_fst_located (cs : List Category) :
    (located cs).map (·.1) = addressesFrom 0 cs :=
  List.map_fst_zip (by rw [length_addressesFrom, length_flattenForest])

theorem map_snd_located (cs : List Category) : (located cs).map (·.2) = flatten cs :=
  List.map_snd_zip (by rw [length_addressesFrom, length_flattenForest])

theorem mem_flatten_of_mem_located {cs : List Category} (mem : (a, d) ∈ located cs) :
    d ∈ flatten cs := by
  rw [← map_snd_located]
  exact List.mem_map_of_mem mem

theorem order_of_located {cs : List Category} {i : Nat} (there : (located cs)[i]? = some (a, d)) :
    d.order = i := by
  have second : ((located cs).map (·.2))[i]? = some d := by rw [List.getElem?_map, there]; rfl
  rw [map_snd_located] at second
  obtain ⟨inside, same⟩ := List.getElem?_eq_some_iff.1 second
  rw [← same, order_getElem inside]

theorem ascending_located (cs : List Category) : ((located cs).map (·.1)).Pairwise (· < ·) := by
  rw [map_fst_located]
  exact pairwise_addressesFrom 0 cs

theorem mem_map_fst_located_iff {cs : List Category} :
    a ∈ (located cs).map (·.1) ↔ ∃ c, find? cs a = some c := by
  rw [map_fst_located]
  exact mem_addressesFrom_zero_iff

/-- An address is that of one entry only. -/
theorem eq_of_address {cs : List Category} {e : FieldDescriptor} (mem : (a, d) ∈ located cs)
    (also : (a, e) ∈ located cs) : d = e := by
  have nodup : ((located cs).map (·.1)).Nodup := by
    refine (ascending_located cs).imp fun {b c} less same => ?_
    rw [same] at less
    exact List.lt_irrefl c less
  exact congrArg Prod.snd (List.inj_on_of_nodup_map nodup mem also rfl)

/-- A place in the list is that of one entry only. -/
theorem address_eq_of_order {cs : List Category} {b : List Nat} {e : FieldDescriptor}
    (mem : (a, d) ∈ located cs) (also : (b, e) ∈ located cs) (same : d.order = e.order) :
    a = b := by
  obtain ⟨i, first⟩ := List.mem_iff_getElem?.1 mem
  obtain ⟨j, second⟩ := List.mem_iff_getElem?.1 also
  rw [order_of_located first, order_of_located second] at same
  subst same
  rw [first] at second
  cases second
  rfl

theorem find?_of_mem_located {cs : List Category} (mem : (a, d) ∈ located cs) :
    ∃ c, find? cs a = some c ∧ d.Describes c := by
  obtain ⟨i, b, rfl, found⟩ := describes_of_mem_forest mem
  rwa [Nat.zero_add]

theorem ne_nil_of_mem_located {cs : List Category} (mem : (a, d) ∈ located cs) : a ≠ [] := by
  obtain ⟨i, b, rfl, -⟩ := describes_of_mem_forest mem
  exact List.cons_ne_nil _ _

theorem hanging_located {cs : List Category} {k : Nat} (inside : a ≠ [])
    (mem : (a ++ [k], d) ∈ located cs) : ∃ e, (a, e) ∈ located cs ∧ d.HangsUnder e := by
  rcases hangs_of_mem_forest mem with ⟨i, same, -⟩ | ⟨b, j, e, same, above, hangs⟩
  · exact absurd (List.append_inj' (same.trans (List.nil_append [i]).symm) rfl).1 inside
  · obtain ⟨rfl, -⟩ := List.append_inj' same rfl
    exact ⟨e, above, hangs⟩

/-- What hangs under an entry are the children of its category. -/
theorem children_located {cs : List Category} {c : Category} (mem : (a, d) ∈ located cs)
    (there : find? cs a = some c) :
    ((located cs).filter fun e => e.2.parentIndex = some d.order).map (·.1) =
      (List.range c.subCategories.length).map (a ++ [·]) := by
  -- both sides ascend, so that it is enough to compare what is in them
  refine List.Pairwise.eq_of_mem_iff (r := (· < ·)) ?_ ?_ fun b => ?_
  · exact (ascending_located cs).sublist (List.filter_sublist.map _)
  · rw [List.pairwise_map]
    refine List.pairwise_lt_range.imp fun less => ?_
    exact List.append_left_lt (List.cons_lt_cons_iff.2 (.inl less))
  · simp only [List.mem_map, List.mem_filter, decide_eq_true_eq, List.mem_range]
    constructor
    · rintro ⟨⟨b, f⟩, ⟨listed, under⟩, rfl⟩
      rcases hangs_of_mem_forest listed with ⟨i, -, root, -⟩ | ⟨b, k, e, rfl, above, index, -⟩
      · rw [root] at under
        cases under
      · rw [under] at index
        obtain rfl := address_eq_of_order mem above (Option.some.inj index)
        obtain ⟨child, found, -⟩ := find?_of_mem_located listed
        rw [find?_child there] at found
        exact ⟨k, (List.getElem?_eq_some_iff.1 found).1, rfl⟩
    · rintro ⟨k, inside, rfl⟩
      have found : find? cs (a ++ [k]) = some c.subCategories[k] := by
        rw [find?_child there, List.getElem?_eq_getElem inside]
      obtain ⟨⟨b, f⟩, listed, same⟩ := List.mem_map.1 (mem_map_fst_located_iff.2 ⟨_, found⟩)
      cases same
      obtain ⟨e, above, index, -⟩ := hanging_located (ne_nil_of_mem_located mem) listed
      obtain rfl := eq_of_address mem above
      exact ⟨_, ⟨listed, index⟩, rfl⟩

/-- **The entries of a forest are its categories in pre-order.** -/
theorem inPreorder_located (cs : List Category) : InPreorder cs (located cs) where
  ascending := ascending_located cs
  addressed a := mem_map_fst_located_iff
  described a d := find?_of_mem_located
  numbered i a d := order_of_located
  roots k d mem := by
    rcases hangs_of_mem_forest mem with ⟨i, -, root⟩ | ⟨b, j, e, same, above, -⟩
    · exact root
    · have nil := (List.append_inj' ((List.nil_append [k]).trans same) rfl).1
      exact absurd nil.symm (ne_nil_of_mem_located above)
  hanging a k d inside mem := by
    obtain ⟨e, above, hangs⟩ := hanging_located inside mem
    exact ⟨e, above, parentIndex_lt (mem_flatten_of_mem_located mem) hangs.1, hangs⟩
  children a d c := children_located

end LiteratureReview
