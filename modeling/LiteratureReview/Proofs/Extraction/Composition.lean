/-
  LiteratureReview.Proofs.Extraction.Composition
  ──────────────────────────────────────────────
  The entries of a forest, put together from those of its parts.

  Where a forest stands in a longer list, its entries have other numbers
  (`shift`); under another entry, those of its roots name the place of that
  one (`hangAt`); under another name, those of its roots name that one
  (`renameRoot`).  Nothing else changes:

    • `flattenForest_append` — one forest behind another,
    • `flattenForest_shift`, `flattenForest_hangAt` — the same forest at
      another place, and under another entry,
    • `flattenUnder_compositional` — both, for whole lists.
-/
import LiteratureReview.Proofs.Extraction.Recovery

namespace LiteratureReview

open Category

/-! ## §1. Entries at another place. -/

namespace FieldDescriptor

/-- The entry with more entries in front of the list. -/
def shift (offset : Nat) (d : FieldDescriptor) : FieldDescriptor :=
  { d with order := d.order + offset, parentIndex := d.parentIndex.map (· + offset) }

/-- The entry, under the one at a place if it was under none. -/
def hangAt (place : Nat) (d : FieldDescriptor) : FieldDescriptor :=
  { d with parentIndex := some (d.parentIndex.getD place) }

/-- The entry, with another name above it if it is under no entry. -/
def renameRoot (parent : Option String) (d : FieldDescriptor) : FieldDescriptor :=
  if d.parentIndex = none then { d with config := { d.config with parent := parent } } else d

/-- What hangs somewhere stays there. -/
theorem hangAt_hangAt (place other : Nat) (d : FieldDescriptor) :
    (d.hangAt place).hangAt other = d.hangAt place := rfl

theorem renameRoot_hangAt (parent : Option String) (place : Nat) (d : FieldDescriptor) :
    (d.hangAt place).renameRoot parent = d.hangAt place :=
  if_neg (Option.some_ne_none _)

end FieldDescriptor

open FieldDescriptor

/-! ## §2. One category. -/

theorem shift_describe (offset order : Nat) (parentIndex : Option Nat) (parent : Option String)
    (c : Category) : (describe c order parentIndex parent).shift offset =
      describe c (order + offset) (parentIndex.map (· + offset)) parent := rfl

theorem hangAt_describe (place order : Nat) (parent : Option String) (c : Category) :
    (describe c order none parent).hangAt place = describe c order (some place) parent := rfl

theorem renameRoot_describe (order : Nat) (parent other : Option String) (c : Category) :
    (describe c order none parent).renameRoot other = describe c order none other := by
  obtain ⟨h, k, children⟩ := c
  show (if none = none then _ else _) = _
  rw [if_pos rfl]
  cases k <;> rfl

/-! ## §3. Forests. -/

/-- One forest behind another. -/
theorem flattenForest_append (start : Nat) (parentIndex : Option Nat) (parent : Option String)
    (a b : List Category) :
    flattenForest start parentIndex parent (a ++ b) =
      flattenForest start parentIndex parent a
        ++ flattenForest (start + nodeCounts a) parentIndex parent b := by
  induction a generalizing start with
  | nil => rw [List.nil_append, flattenForest, nodeCounts, Nat.add_zero, List.nil_append]
  | cons c rest ih =>
    rw [List.cons_append, flattenForest, ih, flattenForest, nodeCounts, List.append_assoc,
      Nat.add_assoc]

mutual

theorem flattenTree_shift (offset start : Nat) (parentIndex : Option Nat)
    (parent : Option String) :
    ∀ c : Category, flattenTree (start + offset) (parentIndex.map (· + offset)) parent c =
      (flattenTree start parentIndex parent c).map (shift offset)
  | .node h k none => by
    rw [flattenTree, flattenTree, List.map_singleton, shift_describe]
  | .node h k (some children) => by
    rw [flattenTree, flattenTree, List.map_cons, shift_describe, Nat.add_right_comm,
      ← flattenForest_shift offset (start + 1) (some start)]
    rfl

/-- A forest that stands further back in the list. -/
theorem flattenForest_shift (offset start : Nat) (parentIndex : Option Nat)
    (parent : Option String) :
    ∀ cs : List Category,
      flattenForest (start + offset) (parentIndex.map (· + offset)) parent cs =
        (flattenForest start parentIndex parent cs).map (shift offset)
  | [] => by rw [flattenForest, flattenForest, List.map_nil]
  | c :: rest => by
    rw [flattenForest, flattenForest, List.map_append, flattenTree_shift, Nat.add_right_comm,
      flattenForest_shift]

end

mutual

theorem flattenTree_hangAt (place start : Nat) (parent : Option String) :
    ∀ c : Category, flattenTree start (some place) parent c =
      (flattenTree start none parent c).map (hangAt place)
  | .node h k none => by
    rw [flattenTree, flattenTree, List.map_singleton, hangAt_describe]
  | .node h k (some children) => by
    -- the children hang under the root, wherever that hangs
    have below := flattenForest_hangAt start (start + 1) (some h.name.text) children
    have kept : (flattenForest (start + 1) (some start) (some h.name.text) children).map
        (hangAt place) = flattenForest (start + 1) (some start) (some h.name.text) children := by
      rw [below, List.map_map]
      exact List.map_congr_left fun d _ => hangAt_hangAt start place d
    rw [flattenTree, flattenTree, List.map_cons, hangAt_describe, kept]

/-- A forest that hangs under an entry: its roots tell so, all others are under one of them. -/
theorem flattenForest_hangAt (place start : Nat) (parent : Option String) :
    ∀ cs : List Category, flattenForest start (some place) parent cs =
      (flattenForest start none parent cs).map (hangAt place)
  | [] => by rw [flattenForest, flattenForest, List.map_nil]
  | c :: rest => by
    rw [flattenForest, flattenForest, List.map_append, flattenTree_hangAt, flattenForest_hangAt]

end

theorem flattenTree_renameRoot (start : Nat) (parent other : Option String) (c : Category) :
    flattenTree start none other c =
      (flattenTree start none parent c).map (renameRoot other) := by
  have kept : (flattenForest (start + 1) (some start) (some c.name.text) c.subCategories).map
      (renameRoot other) =
        flattenForest (start + 1) (some start) (some c.name.text) c.subCategories := by
    rw [flattenForest_hangAt, List.map_map]
    exact List.map_congr_left fun d _ => renameRoot_hangAt other start d
  rw [flattenTree_eq, flattenTree_eq, List.map_cons, renameRoot_describe, kept]

/-- A forest under another name. -/
theorem flattenForest_renameRoot (start : Nat) (parent other : Option String)
    (cs : List Category) :
    flattenForest start none other cs =
      (flattenForest start none parent cs).map (renameRoot other) := by
  induction cs generalizing start with
  | nil => rw [flattenForest, flattenForest, List.map_nil]
  | cons c rest ih =>
    rw [flattenForest, flattenForest, List.map_append, flattenTree_renameRoot start parent, ih]

/-! ## §4. Whole lists. -/

theorem flattenUnder_append (a b : List Category) (parent : Option String) :
    flattenUnder (a ++ b) parent =
      flattenUnder a parent ++ (flattenUnder b parent).map (shift (a.map nodeCount).sum) := by
  have behind := flattenForest_shift (nodeCounts a) 0 none parent b
  unfold flattenUnder
  rw [flattenForest_append, ← nodeCounts_eq_sum, ← behind]
  rfl

/-- The entries of a tree are that of its root, and behind it those of its children. -/
theorem flattenUnder_singleton (c : Category) (parent : Option String) :
    flattenUnder [c] parent = describe c 0 none parent
      :: (flattenUnder c.subCategories (some c.name.text)).map fun d => (d.shift 1).hangAt 0 := by
  have behind := flattenForest_shift 1 0 none (some c.name.text) c.subCategories
  have below : flattenForest 1 (some 0) (some c.name.text) c.subCategories =
      (flattenForest 0 none (some c.name.text) c.subCategories).map
        fun d => (d.shift 1).hangAt 0 := by
    calc flattenForest 1 (some 0) (some c.name.text) c.subCategories
        = (flattenForest 1 none (some c.name.text) c.subCategories).map (hangAt 0) :=
          flattenForest_hangAt 0 1 _ _
      _ = ((flattenForest 0 none (some c.name.text) c.subCategories).map (shift 1)).map
            (hangAt 0) := congrArg _ behind
      _ = _ := List.map_map
  unfold flattenUnder
  rw [flattenForest, flattenForest, List.append_nil, flattenTree_eq, below]

/-- **The entries of a forest are put together from those of its parts.**  Of two forests,
those of the second come behind those of the first, their numbers raised by as many.  Of
one tree, the entry of the root comes first and says what it is; behind it come those of its
children, their numbers raised by one, where those without a parent get the root as theirs.
The name above a forest is told by its roots, and by nothing else. -/
theorem flattenUnder_compositional :
    (∀ (a b : List Category) (parent : Option String), flattenUnder (a ++ b) parent =
      flattenUnder a parent ++ (flattenUnder b parent).map (shift (a.map nodeCount).sum)) ∧
    (∀ (c : Category) (parent : Option String), ∃ root : FieldDescriptor,
      root.Describes c ∧ root.order = 0 ∧ root.parentIndex = none ∧ root.config.parent = parent ∧
        flattenUnder [c] parent = root
          :: (flattenUnder c.subCategories (some c.name.text)).map
              fun d => (d.shift 1).hangAt 0) ∧
    ∀ (cs : List Category) (parent other : Option String),
      flattenUnder cs other = (flattenUnder cs parent).map (renameRoot other) := by
  refine ⟨flattenUnder_append, ?_, fun cs parent other =>
    flattenForest_renameRoot 0 parent other cs⟩
  intro c parent
  exact ⟨describe c 0 none parent, describes_describe .., rfl, rfl, parent_describe ..,
    flattenUnder_singleton c parent⟩

end LiteratureReview
