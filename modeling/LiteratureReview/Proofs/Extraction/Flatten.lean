/-
  LiteratureReview.Proofs.Extraction.Flatten
  ──────────────────────────────────────────
  The places in the list of a flattened forest.

    • `orders_flatten` — the entries are numbered through, one for each
      category of the forest,
    • `parentIndex_lt` — an entry stands behind the one it belongs to.
-/
import LiteratureReview.Extraction.Flatten

namespace LiteratureReview

open Category

/-! ## §1. Numbers. -/

mutual

/-- The entries of a tree are numbered through from the number of its root. -/
theorem orders_flattenTree (start : Nat) (parentIndex : Option Nat) (parent : Option String) :
    ∀ c : Category, (flattenTree start parentIndex parent c).map (·.order) =
      List.range' start c.nodeCount
  | .node h k none => by
    rw [flattenTree, nodeCount]
    rfl
  | .node h k (some children) => by
    rw [flattenTree, List.map_cons, orders_flattenForest, nodeCount, List.range'_succ]
    rfl

/-- The entries of a forest are numbered through from the number of its first root. -/
theorem orders_flattenForest (start : Nat) (parentIndex : Option Nat) (parent : Option String) :
    ∀ cs : List Category, (flattenForest start parentIndex parent cs).map (·.order) =
      List.range' start (nodeCounts cs)
  | [] => by rw [flattenForest, nodeCounts, List.map_nil, List.range'_zero]
  | c :: rest => by
    rw [flattenForest, List.map_append, orders_flattenTree, orders_flattenForest, nodeCounts,
      List.range'_append_1]

end

/-- The entries of a list are numbered by their places. -/
theorem orders_flatten (categories : List Category) :
    (flatten categories).map (·.order) = List.range (nodeCounts categories) := by
  rw [List.range_eq_range']
  exact orders_flattenForest 0 none none categories

/-- There is one entry for each category. -/
theorem length_flatten (categories : List Category) :
    (flatten categories).length = nodeCounts categories := by
  rw [← List.length_map (·.order), orders_flatten, List.length_range]

theorem order_lt {categories : List Category} {d : FieldDescriptor} (h : d ∈ flatten categories) :
    d.order < (flatten categories).length := by
  rw [length_flatten, ← List.mem_range, ← orders_flatten]
  exact List.mem_map_of_mem h

/-- The entry at a place has its number. -/
theorem order_getElem {categories : List Category} {i : Nat}
    (inside : i < (flatten categories).length) : ((flatten categories)[i]).order = i := by
  have there : i < ((flatten categories).map (·.order)).length := by rwa [List.length_map]
  have : ((flatten categories).map (·.order))[i] = i := by
    simp only [orders_flatten, List.getElem_range]
  rwa [List.getElem_map] at this

/-! ## §2. Parents. -/

mutual

theorem parentIndex_lt_of_tree {start : Nat} {parentIndex : Option Nat} {parent : Option String}
    (above : ∀ j, parentIndex = some j → j < start) {d : FieldDescriptor} {j : Nat} :
    ∀ c : Category, d ∈ flattenTree start parentIndex parent c → d.parentIndex = some j →
      j < d.order
  | .node h k none, mem, below => by
    rw [flattenTree, List.mem_singleton] at mem
    subst mem
    exact above j below
  | .node h k (some children), mem, below => by
    rw [flattenTree, List.mem_cons] at mem
    rcases mem with rfl | mem
    · exact above j below
    -- the children hang under the root, and are numbered behind it
    · refine parentIndex_lt_of_forest (fun i root => ?_) children mem below
      cases root
      exact Nat.lt_succ_self start

theorem parentIndex_lt_of_forest {start : Nat} {parentIndex : Option Nat} {parent : Option String}
    (above : ∀ j, parentIndex = some j → j < start) {d : FieldDescriptor} {j : Nat} :
    ∀ cs : List Category, d ∈ flattenForest start parentIndex parent cs →
      d.parentIndex = some j → j < d.order
  | [], mem, _ => by
    rw [flattenForest] at mem
    cases mem
  | c :: rest, mem, below => by
    rw [flattenForest, List.mem_append] at mem
    rcases mem with mem | mem
    · exact parentIndex_lt_of_tree above c mem below
    · refine parentIndex_lt_of_forest (fun i root => ?_) rest mem below
      have := above i root
      omega

end

/-- An entry stands behind the one it belongs to. -/
theorem parentIndex_lt {categories : List Category} {d : FieldDescriptor} {j : Nat}
    (mem : d ∈ flatten categories) (below : d.parentIndex = some j) : j < d.order :=
  parentIndex_lt_of_forest (fun _ root => by cases root) categories mem below

end LiteratureReview
