/-
  LiteratureReview.Proofs.Extraction.Recovery
  ───────────────────────────────────────────
  A forest can be told from its list of fields.

  What the list leaves open is whether a title was left out or is the name
  itself, and whether a list of children was left out or is empty (`plain`).
  An entry says what its category is (`FieldDescriptor.Describes.unique`), and
  where a tree ends in the list is seen from the entry behind it, which hangs
  under one that stands before the tree (`Behind`).
-/
import Mathlib
import LiteratureReview.Proofs.Extraction.Preorder

namespace LiteratureReview

/-! ## §1. Forests with their defaults written out. -/

/-- The title is the name where there is none. -/
def CategoryHead.plain (h : CategoryHead) : CategoryHead :=
  { h with title := some (h.title.getD h.name.text) }

namespace Category

/-- A list of children, left out when it is empty. -/
def childrenOf : List Category → Option (List Category)
  | [] => none
  | c :: rest => some (c :: rest)

mutual

/-- A category with its title given and no empty lists of children, and all below alike. -/
def plain : Category → Category
  | .node h k (some children) => .node h.plain k (childrenOf (plainAll children))
  | .node h k none => .node h.plain k none

def plainAll : List Category → List Category
  | [] => []
  | c :: rest => plain c :: plainAll rest

end

theorem plainAll_eq_map (cs : List Category) : plainAll cs = cs.map plain := by
  induction cs with
  | nil => rw [plainAll, List.map_nil]
  | cons c rest ih => rw [plainAll, ih, List.map_cons]

theorem plain_eq (c : Category) :
    c.plain = .node c.head.plain c.kind (childrenOf (c.subCategories.map plain)) := by
  obtain ⟨h, k, _ | children⟩ := c
  · rw [plain]
    rfl
  · rw [plain, plainAll_eq_map]
    rfl

theorem getD_childrenOf (cs : List Category) : (childrenOf cs).getD [] = cs := by
  cases cs <;> rfl

theorem nodeCount_eq (c : Category) : c.nodeCount = nodeCounts c.subCategories + 1 := by
  obtain ⟨h, k, _ | children⟩ := c
  · rw [nodeCount]
    rfl
  · rw [nodeCount]
    rfl

/-- There are as many categories as there are in the single trees. -/
theorem nodeCounts_eq_sum (cs : List Category) : nodeCounts cs = (cs.map nodeCount).sum := by
  induction cs with
  | nil => rw [nodeCounts, List.map_nil, List.sum_nil]
  | cons c rest ih => rw [nodeCounts, ih, List.map_cons, List.sum_cons]

mutual

theorem nodeCount_plain : ∀ c : Category, c.plain.nodeCount = c.nodeCount
  | .node h k none => by rw [plain, nodeCount, nodeCount]
  | .node h k (some children) => by
    rw [plain, nodeCount_eq, subCategories, getD_childrenOf, nodeCounts_plainAll, nodeCount]

theorem nodeCounts_plainAll : ∀ cs : List Category, nodeCounts (plainAll cs) = nodeCounts cs
  | [] => by rw [plainAll]
  | c :: rest => by
    rw [plainAll, nodeCounts, nodeCounts, nodeCount_plain, nodeCounts_plainAll]

end

end Category

open Category

/-! ## §2. What is left open does not matter. -/

/-- The entries of a tree are that of its root and those of its children. -/
theorem flattenTree_eq (start : Nat) (parentIndex : Option Nat) (parent : Option String)
    (c : Category) : flattenTree start parentIndex parent c =
      describe c start parentIndex parent
        :: flattenForest (start + 1) (some start) (some c.name.text) c.subCategories := by
  obtain ⟨h, k, _ | children⟩ := c
  · rw [flattenTree, subCategories, Option.getD_none, flattenForest]
  · rw [flattenTree]
    rfl

theorem describe_plain (c : Category) (order : Nat) (parentIndex : Option Nat)
    (parent : Option String) :
    describe c.plain order parentIndex parent = describe c order parentIndex parent := by
  rw [plain_eq]
  rfl

mutual

theorem flattenTree_plain (start : Nat) (parentIndex : Option Nat) (parent : Option String) :
    ∀ c : Category, flattenTree start parentIndex parent c.plain =
      flattenTree start parentIndex parent c
  | .node h k none => by
    have root := describe_plain (.node h k none) start parentIndex parent
    rw [plain] at root ⊢
    rw [flattenTree, flattenTree, root]
  | .node h k (some children) => by
    have root := describe_plain (.node h k (some children)) start parentIndex parent
    rw [flattenTree_eq, root, flattenTree, plain, subCategories, getD_childrenOf]
    exact congrArg _ (flattenForest_plainAll (start + 1) (some start) (some h.name.text) children)

theorem flattenForest_plainAll (start : Nat) (parentIndex : Option Nat) (parent : Option String) :
    ∀ cs : List Category, flattenForest start parentIndex parent (plainAll cs) =
      flattenForest start parentIndex parent cs
  | [] => by rw [plainAll]
  | c :: rest => by
    rw [plainAll, flattenForest, flattenTree_plain, nodeCount_plain, flattenForest_plainAll,
      flattenForest]

end

/-! ## §3. All else is told. -/

theorem ScalarType.eq_of_name {s t : ScalarType} (same : s.name = t.name) : s = t := by
  cases s <;> cases t <;> first | rfl | exact absurd same (by decide)

theorem ScalarType.name_ne_list (s : ScalarType) : s.name ≠ "list" ∧ s.name ≠ "dynamic_list" := by
  cases s <;> decide

theorem NamedEntry.eq_of_texts {entries others : List NamedEntry}
    (same : (entries.map fun e => e.name.text) = others.map fun e => e.name.text) :
    entries = others := by
  refine List.map_injective_iff.2 ?_ same
  rintro ⟨⟨s, _⟩⟩ ⟨⟨t, _⟩⟩ rfl
  rfl

/-- An entry has the settings of one kind only. -/
theorem FieldDescriptor.HasSettings.unique {d : FieldDescriptor} {k l : CategoryKind}
    (first : d.HasSettings k) (second : d.HasSettings l) : k = l := by
  cases k with
  | simple type =>
    obtain ⟨name, rfl, rfl, rfl, -⟩ := first
    cases l with
    | simple other =>
      obtain ⟨same, rfl, rfl, rfl, -⟩ := second
      rw [ScalarType.eq_of_name (name.symm.trans same)]
    | list => exact absurd (name.symm.trans second.1) type.name_ne_list.1
    | independent | dependent => exact absurd (name.symm.trans second.1) type.name_ne_list.2
  | list values =>
    obtain ⟨name, texts, -⟩ := first
    cases l with
    | simple other => exact absurd (second.1.symm.trans name) other.name_ne_list.1
    | list => rw [NamedEntry.eq_of_texts (Option.some.inj (texts.symm.trans second.2.1))]
    | independent | dependent => exact absurd (name.symm.trans second.1) (by decide)
  | independent referenceName initialValues =>
    obtain ⟨name, subtype, texts, rfl, -⟩ := first
    cases l with
    | simple other => exact absurd (second.1.symm.trans name) other.name_ne_list.2
    | list => exact absurd (name.symm.trans second.1) (by decide)
    | independent =>
      obtain ⟨-, -, others, rfl, -⟩ := second
      rw [NamedEntry.eq_of_texts (Option.some.inj (texts.symm.trans others))]
    | dependent => exact absurd (subtype.symm.trans second.2.1) (by decide)
  | dependent dependsOn =>
    obtain ⟨name, subtype, text, -⟩ := first
    cases l with
    | simple other => exact absurd (second.1.symm.trans name) other.name_ne_list.2
    | list => exact absurd (name.symm.trans second.1) (by decide)
    | independent => exact absurd (subtype.symm.trans second.2.1) (by decide)
    | dependent other =>
      have same := Option.some.inj (text.symm.trans second.2.2.1)
      obtain ⟨s, _⟩ := dependsOn
      obtain ⟨t, _⟩ := other
      cases same
      rfl

/-- **An entry describes one category only**, its children and an absent title apart. -/
theorem FieldDescriptor.Describes.unique {d : FieldDescriptor} {c e : Category}
    (first : d.Describes c) (second : d.Describes e) :
    c.head.plain = e.head.plain ∧ c.kind = e.kind := by
  obtain ⟨⟨⟨s, _⟩, title, mandatory, count⟩, k, children⟩ := c
  obtain ⟨⟨⟨t, _⟩, other, also, number⟩, l, below⟩ := e
  refine ⟨?_, first.settings.unique second.settings⟩
  obtain rfl : s = t := first.name.symm.trans second.name
  obtain rfl : mandatory = also := first.isRequired.symm.trans second.isRequired
  obtain rfl : count = number := first.numberOfValues.symm.trans second.numberOfValues
  have label : title.getD s = other.getD s := first.label.symm.trans second.label
  rw [CategoryHead.plain, CategoryHead.plain]
  exact congrArg (fun l => CategoryHead.mk _ (some l) _ _) label

/-- The next entry hangs under none or one that stands before `start`. -/
def Behind (start : Nat) (entries : List FieldDescriptor) : Prop :=
  ∀ e ∈ entries.head?, ∀ j, e.parentIndex = some j → j < start

theorem Behind.mono {start later : Nat} {entries : List FieldDescriptor}
    (behind : Behind start entries) (le : start ≤ later) : Behind later entries :=
  fun e next j index => Nat.lt_of_lt_of_le (behind e next j index) le

theorem parentIndex_of_head_flattenForest {start : Nat} {parentIndex : Option Nat}
    {parent : Option String} {c : Category} {rest : List Category} {entries : List FieldDescriptor}
    {e : FieldDescriptor}
    (next : e ∈ (flattenForest start parentIndex parent (c :: rest) ++ entries).head?) :
    e.parentIndex = parentIndex := by
  rw [flattenForest, flattenTree_eq] at next
  cases next
  rfl

/-- What follows a tree among its siblings stands behind it. -/
theorem behind_flattenForest {start size : Nat} {parentIndex : Option Nat} {parent : Option String}
    (above : ∀ j, parentIndex = some j → j < start) {cs : List Category}
    {entries : List FieldDescriptor} (behind : Behind start entries) :
    Behind start (flattenForest (start + size) parentIndex parent cs ++ entries) := by
  cases cs with
  | nil =>
    rw [flattenForest]
    exact behind
  | cons c rest =>
    intro e next j index
    exact above j ((parentIndex_of_head_flattenForest next).symm.trans index)

/-- The next entry is no sibling of those that hang under `parentIndex`. -/
def Ends (parentIndex : Option Nat) (entries : List FieldDescriptor) : Prop :=
  ∀ e ∈ entries.head?, e.parentIndex ≠ parentIndex

theorem Behind.ends {start : Nat} {entries : List FieldDescriptor}
    (behind : Behind start entries) : Ends (some start) entries :=
  fun e next index => Nat.lt_irrefl start (behind e next start index)

/-- An empty forest is told from the entry behind it. -/
theorem eq_nil_of_flattenForest {start : Nat} {parentIndex : Option Nat} {parent : Option String}
    {cs : List Category} {r s : List FieldDescriptor} (ends : Ends parentIndex r)
    (same : r = flattenForest start parentIndex parent cs ++ s) : cs = [] ∧ r = s := by
  cases cs with
  | nil =>
    rw [flattenForest] at same
    exact ⟨rfl, same⟩
  | cons c rest =>
    have next : describe c start parentIndex parent ∈ r.head? := by
      rw [same, flattenForest, flattenTree_eq]
      rfl
    exact absurd rfl (ends _ next)

/-- Two trees are alike when their roots and their forests of children are. -/
theorem plain_eq_of_children {start : Nat} {parentIndex : Option Nat} {parent : Option String}
    {c d : Category} {r s : List FieldDescriptor}
    (forests : ∀ {ds : List Category} {name : Option String},
      flattenForest (start + 1) (some start) name c.subCategories ++ r =
        flattenForest (start + 1) (some start) name ds ++ s →
          c.subCategories.map plain = ds.map plain ∧ r = s)
    (same : flattenTree start parentIndex parent c ++ r =
      flattenTree start parentIndex parent d ++ s) : c.plain = d.plain ∧ r = s := by
  rw [flattenTree_eq, flattenTree_eq] at same
  obtain ⟨root, rest⟩ := List.cons.inj same
  have first := describes_describe c start parentIndex parent
  have second := describes_describe d start parentIndex parent
  rw [root] at first
  obtain ⟨heads, kinds⟩ := first.unique second
  have names : c.name.text = d.name.text := first.name.symm.trans second.name
  rw [names] at rest
  obtain ⟨children, behind⟩ := forests rest
  rw [plain_eq, plain_eq, heads, kinds, children]
  exact ⟨rfl, behind⟩

mutual

/-- **A tree is told from a list that begins with its entries**, and so is where it ends. -/
theorem plain_eq_of_flattenTree {start : Nat} {parentIndex : Option Nat} {parent : Option String}
    {d : Category} {r s : List FieldDescriptor} (left : Behind start r) (right : Behind start s) :
    ∀ {c : Category}, flattenTree start parentIndex parent c ++ r =
      flattenTree start parentIndex parent d ++ s → c.plain = d.plain ∧ r = s
  | .node h k none, same => by
    refine plain_eq_of_children (fun {ds name} under => ?_) same
    rw [subCategories, Option.getD_none, flattenForest] at under
    obtain ⟨rfl, behind⟩ := eq_nil_of_flattenForest left.ends under
    exact ⟨rfl, behind⟩
  | .node h k (some children), same => by
    refine plain_eq_of_children (fun {ds name} under => ?_) same
    have later := Nat.lt_succ_self start
    exact plain_eq_of_flattenForest (fun j index => Option.some.inj index ▸ later)
      (left.mono later.le) (right.mono later.le) left.ends right.ends under

/-- A forest is told from a list that begins with its entries. -/
theorem plain_eq_of_flattenForest {start : Nat} {parentIndex : Option Nat} {parent : Option String}
    {ds : List Category} {r s : List FieldDescriptor}
    (above : ∀ j, parentIndex = some j → j < start) (left : Behind start r)
    (right : Behind start s) (leftEnds : Ends parentIndex r) (rightEnds : Ends parentIndex s) :
    ∀ {cs : List Category}, flattenForest start parentIndex parent cs ++ r =
      flattenForest start parentIndex parent ds ++ s → cs.map plain = ds.map plain ∧ r = s
  | [], same => by
    rw [flattenForest] at same
    obtain ⟨rfl, behind⟩ := eq_nil_of_flattenForest leftEnds same
    exact ⟨rfl, behind⟩
  | c :: rest, same => by
    cases ds with
    | nil =>
      have whole : s = flattenForest start parentIndex parent (c :: rest) ++ r := by
        rw [same, flattenForest, List.nil_append]
      obtain ⟨none, -⟩ := eq_nil_of_flattenForest rightEnds whole
      cases none
    | cons d others =>
      rw [flattenForest, flattenForest, List.append_assoc, List.append_assoc] at same
      obtain ⟨trees, tails⟩ := plain_eq_of_flattenTree (behind_flattenForest above left)
        (behind_flattenForest above right) same
      have sizes : c.nodeCount = d.nodeCount := by
        rw [← nodeCount_plain c, trees, nodeCount_plain]
      rw [sizes] at tails
      have later : start ≤ start + d.nodeCount := Nat.le_add_right ..
      obtain ⟨forests, behind⟩ := plain_eq_of_flattenForest
        (fun j index => Nat.lt_of_lt_of_le (above j index) later) (left.mono later)
        (right.mono later) leftEnds rightEnds tails
      rw [List.map_cons, List.map_cons, trees, forests]
      exact ⟨rfl, behind⟩

end

/-- **Forests have the same list when they differ in what is left open only.** -/
theorem flatten_eq_iff {cs ds : List Category} :
    flatten cs = flatten ds ↔ cs.map plain = ds.map plain := by
  constructor
  · intro same
    have behind : Behind 0 [] := fun e next => by cases next
    have ends : Ends none [] := fun e next => by cases next
    have above : ∀ j, (none : Option Nat) = some j → j < 0 := fun j index => by cases index
    have whole : flattenForest 0 none none cs ++ [] = flattenForest 0 none none ds ++ [] :=
      congrArg (· ++ []) same
    exact (plain_eq_of_flattenForest above behind behind ends ends whole).1
  · intro same
    rw [← plainAll_eq_map, ← plainAll_eq_map] at same
    calc flatten cs = flattenForest 0 none none (plainAll cs) := (flattenForest_plainAll ..).symm
      _ = flattenForest 0 none none (plainAll ds) := by rw [same]
      _ = flatten ds := flattenForest_plainAll ..

/-- **Flattening is an exact encoding of a forest in pre-order.**  Its entries are one for each
category, stand in pre-order, and say what their categories are and where they hang; and two
forests with the same entries are one, up to the spelling of absent titles and children. -/
theorem flatten_exact (cs : List Category) :
    (∃ entries, entries.map (·.2) = flatten cs ∧ InPreorder cs entries) ∧
      (flatten cs).length = (cs.map nodeCount).sum ∧
      ∀ ds, flatten cs = flatten ds ↔ cs.map plain = ds.map plain :=
  ⟨⟨located cs, map_snd_located cs, inPreorder_located cs⟩,
    (length_flatten cs).trans (nodeCounts_eq_sum cs), fun _ => flatten_eq_iff⟩

end LiteratureReview
