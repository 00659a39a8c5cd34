/-
  LiteratureReview.Proofs.Settings.Gaps
  ─────────────────────────────────────
  Filling gaps gives a document again.

  What is put into a gap is written with ascending keys and nests four deep
  at most, so that a document whose gaps are filled is a value a program can
  hold (`isOrdered_fill`), and no deeper than it was or four levels
  (`depth_fill_le`).
-/
import LiteratureReview.Proofs.Json.Ordering
import LiteratureReview.Settings.Gaps

namespace LiteratureReview

/-! ## §1. Setting keys. -/

namespace Json

variable {v value : Json} {key : String} {members : List (String × Json)}

theorem depth_insertMember_le {d : Nat} (old : depthMembers members ≤ d) (new : value.depth ≤ d) :
    depthMembers (insertMember key value members) ≤ d := by
  refine depthMembers_le fun m mem => ?_
  rcases mem_insertMember_iff mem with rfl | there
  · exact new
  · exact (depth_le_depthMembers there).trans old

/-- A value with a key set is no deeper than it was, or than what is set. -/
theorem depth_set_le {d : Nat} (old : v.depth ≤ d) (new : value.depth < d) :
    (v.set key value).depth ≤ d := by
  cases v with
  | object members =>
    rw [depth] at old
    have inside : depthMembers (insertMember key value members) ≤ d - 1 :=
      depth_insertMember_le (Nat.le_sub_one_of_lt old) (Nat.le_sub_one_of_lt new)
    show depthMembers (insertMember key value members) + 1 ≤ d
    omega
  | _ => exact old

theorem depth_ofMembers_le {d : Nat} (each : ∀ m ∈ members, m.2.depth ≤ d) :
    (ofMembers members).depth ≤ d + 1 := by
  have step : ∀ front : List (String × Json), depthMembers front ≤ d →
      depthMembers (members.foldl (fun acc m => insertMember m.1 m.2 acc) front) ≤ d := by
    induction members with
    | nil => exact fun _ shallow => shallow
    | cons m rest ih =>
      obtain ⟨first, later⟩ := List.forall_mem_cons.1 each
      exact fun front shallow => ih later _ (depth_insertMember_le shallow first)
  exact Nat.succ_le_succ (step [] (Nat.zero_le d))

end Json

open Json

/-! ## §2. Filling gaps. -/

namespace DefaultsSettings

variable {v value document : Json} {key : String}

theorem isOrdered_categories (d : DefaultsSettings) : d.categories.IsOrdered := by
  refine isOrdered_list_iff.2 (List.forall_mem_singleton.2 (isOrdered_ofMembers ?_))
  simp [IsOrdered, every]

theorem depth_categories_le (d : DefaultsSettings) : d.categories.depth ≤ 2 := by
  refine Nat.succ_le_succ (depthItems_le (List.forall_mem_singleton.2 (depth_ofMembers_le ?_)))
  simp [depth]

theorem isOrdered_criteria (d : DefaultsSettings) : d.criteria.IsOrdered := by
  simp [criteria, IsOrdered, every, everyItem, everyMember]

theorem depth_criteria (d : DefaultsSettings) : d.criteria.depth = 2 := rfl

theorem isOrdered_fillGap (ordered : v.IsOrdered) (new : value.IsOrdered) :
    (fillGap key value v).IsOrdered := by
  unfold fillGap
  split
  · split
    · exact ordered.set new
    · exact ordered
  · exact ordered

theorem depth_fillGap_le {n : Nat} (old : v.depth ≤ n) (new : value.depth < n) :
    (fillGap key value v).depth ≤ n := by
  unfold fillGap
  split
  · split
    · exact depth_set_le old new
    · exact old
  · exact old

/-- **A document whose gaps are filled has its keys in order.** -/
theorem isOrdered_fill (d : DefaultsSettings) (ordered : document.IsOrdered) :
    (d.fill document).IsOrdered := by
  have filled : (fillGap "category" d.categories document).IsOrdered :=
    isOrdered_fillGap ordered d.isOrdered_categories
  unfold fill fillScreening
  split
  next members found =>
    obtain ⟨_, same, found⟩ := get?_eq_some_iff.1 found
    rw [same] at filled ⊢
    have inner := (isOrdered_object_iff.1 filled).2 _ (mem_of_lookup found)
    exact filled.set (isOrdered_fillGap inner d.isOrdered_criteria)
  next => exact filled

/-- **A document whose gaps are filled is no deeper than it was, or has four levels.** -/
theorem depth_fill_le (d : DefaultsSettings) {n : Nat} (shallow : document.depth ≤ n)
    (some : 4 ≤ n) : (d.fill document).depth ≤ n := by
  have categories := d.depth_categories_le
  have filled : (fillGap "category" d.categories document).depth ≤ n :=
    depth_fillGap_le shallow (by omega)
  unfold fill fillScreening
  split
  next members found =>
    -- the section is one level lower than the document
    have inner : (Json.object members).depth ≤ n - 1 := by
      have := depth_get?_lt found
      omega
    have criteria : d.criteria.depth < n - 1 := by
      rw [depth_criteria]
      omega
    exact depth_set_le filled (lt_of_le_of_lt (depth_fillGap_le inner criteria) (by omega))
  next => exact filled

end DefaultsSettings

end LiteratureReview
