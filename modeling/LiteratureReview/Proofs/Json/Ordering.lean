/-
  LiteratureReview.Proofs.Json.Ordering
  ─────────────────────────────────────
  The form of a value without the order of its members.

  Sorting the members by key keeps what stands under each key
  (`lookup_normalizeMembers`), makes the value ordered
  (`isOrdered_normalize`), changes nothing when it already is
  (`normalize_of_isOrdered`), and makes it no deeper
  (`depth_normalize_le`).
-/
import LiteratureReview.Proofs.Json.Proper
import Mathlib.Data.String.Basic

namespace LiteratureReview

namespace Json

variable {key : String} {value : Json} {members : List (String × Json)}

/-! ## §1. Inserting a member. -/

theorem lookup_insertMember (k : String) :
    (insertMember key value members).lookup k =
      if k = key then some value else members.lookup k := by
  induction members with
  | nil => rw [insertMember, lookup_cons_ite]
  | cons m rest ih =>
    obtain ⟨l, v⟩ := m
    rw [insertMember]
    split
    · rw [lookup_cons_ite]
    · split
      next same =>
        subst same
        rw [lookup_cons_ite, lookup_cons_ite]
        split <;> rfl
      next before other =>
        rw [lookup_cons_ite, lookup_cons_ite, ih]
        by_cases h : k = l
        · subst h
          rw [if_pos rfl, if_pos rfl, if_neg (Ne.symm other)]
        · rw [if_neg h, if_neg h]

theorem mem_insertMember_iff {m : String × Json} (h : m ∈ insertMember key value members) :
    m = (key, value) ∨ m ∈ members := by
  induction members with
  | nil => simpa [insertMember] using h
  | cons l rest ih =>
    obtain ⟨k, v⟩ := l
    rw [insertMember] at h
    split at h
    · simpa using h
    · split at h
      · rcases List.mem_cons.1 h with rfl | h
        · exact .inl rfl
        · exact .inr (List.mem_cons_of_mem _ h)
      · rcases List.mem_cons.1 h with rfl | h
        · exact .inr List.mem_cons_self
        · exact (ih h).imp_right (List.mem_cons_of_mem _)

/-- Under a new key nothing is replaced. -/
theorem mem_insertMember_of_absent {m : String × Json} (absent : members.lookup key = none) :
    m ∈ insertMember key value members ↔ m = (key, value) ∨ m ∈ members := by
  induction members with
  | nil => rw [insertMember, List.mem_singleton, or_iff_left List.not_mem_nil]
  | cons l rest ih =>
    obtain ⟨k, v⟩ := l
    rw [lookup_cons_ite] at absent
    split at absent
    next => cases absent
    next other =>
      rw [insertMember, if_neg other]
      split
      · exact List.mem_cons
      · rw [List.mem_cons, List.mem_cons, ih absent, or_left_comm]

/-- Ascending keys stay ascending. -/
theorem pairwise_insertMember (sorted : (members.map (·.1)).Pairwise (· < ·)) :
    ((insertMember key value members).map (·.1)).Pairwise (· < ·) := by
  induction members with
  | nil => simp [insertMember]
  | cons m rest ih =>
    obtain ⟨k, v⟩ := m
    rw [List.map_cons, List.pairwise_cons] at sorted
    obtain ⟨least, sorted⟩ := sorted
    rw [insertMember]
    split
    next before =>
      rw [List.map_cons, List.map_cons, List.pairwise_cons, List.pairwise_cons]
      refine ⟨?_, least, sorted⟩
      intro l mem
      rcases List.mem_cons.1 mem with rfl | mem
      · exact before
      · exact lt_trans before (least l mem)
    next notBefore =>
      split
      next same =>
        subst same
        rw [List.map_cons, List.pairwise_cons]
        exact ⟨least, sorted⟩
      next other =>
        rw [List.map_cons, List.pairwise_cons]
        refine ⟨?_, ih sorted⟩
        intro l mem
        obtain ⟨n, there, rfl⟩ := List.mem_map.1 mem
        rcases mem_insertMember_iff there with rfl | there
        · exact lt_of_le_of_ne (not_lt.1 notBefore) (Ne.symm other)
        · exact least _ (List.mem_map_of_mem there)

/-- A key before all others is put in front. -/
theorem insertMember_of_least (least : ∀ k ∈ members.map (·.1), key < k) :
    insertMember key value members = (key, value) :: members := by
  cases members with
  | nil => rfl
  | cons m rest =>
    obtain ⟨k, v⟩ := m
    rw [insertMember, if_pos (least k List.mem_cons_self)]

/-! ## §2. Sorting. -/

theorem mem_normalizeMembers :
    ∀ m ∈ normalizeMembers members, ∃ v, (m.1, v) ∈ members ∧ m.2 = v.normalize := by
  induction members with
  | nil => simp [normalizeMembers]
  | cons l rest ih =>
    obtain ⟨k, v⟩ := l
    intro m h
    rw [normalizeMembers] at h
    have later : m ∈ normalizeMembers rest →
        ∃ w, (m.1, w) ∈ (k, v) :: rest ∧ m.2 = w.normalize := by
      intro mem
      obtain ⟨w, there, same⟩ := ih m mem
      exact ⟨w, List.mem_cons_of_mem _ there, same⟩
    split at h
    · exact later h
    · rcases mem_insertMember_iff h with rfl | h
      · exact ⟨v, List.mem_cons_self, rfl⟩
      · exact later h

/-- Under distinct keys, sorting leaves what stands under a key where it is. -/
theorem lookup_normalizeMembers (distinct : (members.map (·.1)).Nodup) (k : String) :
    (normalizeMembers members).lookup k = (members.lookup k).map normalize := by
  induction members with
  | nil => rfl
  | cons m rest ih =>
    obtain ⟨l, v⟩ := m
    rw [List.map_cons, List.nodup_cons] at distinct
    obtain ⟨fresh, distinct⟩ := distinct
    have notLater : ((normalizeMembers rest).any (·.1 == l)) = false := by
      rw [List.any_eq_false]
      rintro ⟨k', w⟩ mem same
      obtain ⟨u, there, -⟩ := mem_normalizeMembers _ mem
      rw [eq_of_beq same] at there
      exact fresh (List.mem_map.2 ⟨_, there, rfl⟩)
    rw [normalizeMembers]
    simp only [notLater, Bool.false_eq_true, if_false]
    rw [lookup_insertMember, lookup_cons_ite, ih distinct]
    split <;> rfl

/-- What stands under a key of a sorted value is what stood there, sorted. -/
theorem get?_normalize {v : Json} (proper : v.IsProper) (key : String) :
    v.normalize.get? key = (v.get? key).map normalize := by
  cases v with
  | object members => exact lookup_normalizeMembers (isProper_object_iff.1 proper).1 key
  | _ => rfl

theorem normalizeItems_eq_map (items : List Json) : normalizeItems items = items.map normalize := by
  induction items with
  | nil => rfl
  | cons v rest ih => rw [normalizeItems, ih, List.map_cons]

theorem pairwise_normalizeMembers :
    ((normalizeMembers members).map (·.1)).Pairwise (· < ·) := by
  induction members with
  | nil => exact List.Pairwise.nil
  | cons m rest ih =>
    obtain ⟨k, v⟩ := m
    rw [normalizeMembers]
    split
    · exact ih
    · exact pairwise_insertMember ih

/-! ## §3. Whole values. -/

@[simp] theorem isOrdered_list_iff {items : List Json} :
    (Json.list items).IsOrdered ↔ ∀ v ∈ items, v.IsOrdered := every_list_iff

@[simp] theorem isOrdered_object_iff :
    (Json.object members).IsOrdered ↔
      (members.map (·.1)).Pairwise (· < ·) ∧ ∀ m ∈ members, m.2.IsOrdered := by
  unfold IsOrdered
  rw [every_object_iff, decide_eq_true_eq]

/-- A member is inserted in its place. -/
theorem isOrdered_insertMember (ordered : (Json.object members).IsOrdered)
    (new : value.IsOrdered) : (Json.object (insertMember key value members)).IsOrdered := by
  obtain ⟨sorted, each⟩ := isOrdered_object_iff.1 ordered
  refine isOrdered_object_iff.2 ⟨pairwise_insertMember sorted, fun m mem => ?_⟩
  rcases mem_insertMember_iff mem with rfl | old
  · exact new
  · exact each m old

/-- A key that is set stands among the others, in their order. -/
theorem IsOrdered.set {v : Json} (ordered : v.IsOrdered) (new : value.IsOrdered) :
    (v.set key value).IsOrdered := by
  cases v with
  | object members => exact isOrdered_insertMember ordered new
  | _ => exact ordered

/-- An object that is put together key by key has its keys in order. -/
theorem isOrdered_ofMembers (each : ∀ m ∈ members, m.2.IsOrdered) :
    (ofMembers members).IsOrdered := by
  have step : ∀ front : List (String × Json), (Json.object front).IsOrdered →
      (Json.object (members.foldl (fun acc m => insertMember m.1 m.2 acc) front)).IsOrdered := by
    induction members with
    | nil => exact fun _ ordered => ordered
    | cons m rest ih =>
      obtain ⟨first, later⟩ := List.forall_mem_cons.1 each
      exact fun front ordered => ih later _ (isOrdered_insertMember ordered first)
  exact step [] (isOrdered_object_iff.2 ⟨List.Pairwise.nil, nofun⟩)

/-- What stands under a key of an ordered value is ordered. -/
theorem isOrdered_of_lookup {w : Json} (ordered : (Json.object members).IsOrdered)
    (found : members.lookup key = some w) : w.IsOrdered :=
  (isOrdered_object_iff.1 ordered).2 _ (mem_of_lookup found)

theorem IsOrdered.get? {v w : Json} (ordered : v.IsOrdered) (found : v.get? key = some w) :
    w.IsOrdered := by
  obtain ⟨members, rfl, found⟩ := get?_eq_some_iff.1 found
  exact isOrdered_of_lookup ordered found

/-- Ascending keys are distinct. -/
theorem IsOrdered.isProper {v : Json} (h : v.IsOrdered) : v.IsProper := by
  refine every_mono (fun keys sorted => ?_) h
  rw [decide_eq_true_eq] at sorted ⊢
  exact sorted.imp fun lt => ne_of_lt lt

/-- **A value whose numbers are proper is ordered once its members are sorted**, since
of members with one key the last is kept. -/
theorem isOrdered_normalize {v : Json} (h : v.HasProperNumbers) : v.normalize.IsOrdered := by
  induction v using depth_induction with
  | step v ih =>
    cases v with
    | list items =>
      rw [normalize, normalizeItems_eq_map, isOrdered_list_iff]
      intro w mem
      obtain ⟨u, there, rfl⟩ := List.mem_map.1 mem
      exact ih u (depth_item_lt there) (every_list_iff.1 h u there)
    | object members =>
      rw [normalize, isOrdered_object_iff]
      refine ⟨pairwise_normalizeMembers, fun m mem => ?_⟩
      obtain ⟨u, there, same⟩ := mem_normalizeMembers m mem
      rw [same]
      exact ih u (depth_member_lt there) ((every_object_iff.1 h).2 _ there)
    | number n => exact h
    | null | bool b | text s => rfl

/-- **An ordered value is its own sorted form.** -/
theorem normalize_of_isOrdered {v : Json} (h : v.IsOrdered) : v.normalize = v := by
  induction v using depth_induction with
  | step v ih =>
    cases v with
    | list items =>
      have each : ∀ w ∈ items, w.normalize = w := fun w mem =>
        ih w (depth_item_lt mem) (isOrdered_list_iff.1 h w mem)
      rw [normalize, normalizeItems_eq_map, List.map_congr_left each, List.map_id']
    | object members =>
      obtain ⟨sorted, each⟩ := isOrdered_object_iff.1 h
      have same : ∀ m ∈ members, m.2.normalize = m.2 := fun m mem =>
        ih m.2 (depth_member_lt mem) (each m mem)
      have sorting : normalizeMembers members = members := by
        clear ih h each
        induction members with
        | nil => rfl
        | cons m rest ih =>
          obtain ⟨k, v⟩ := m
          rw [List.map_cons, List.pairwise_cons] at sorted
          have later := ih sorted.2 fun m mem => same m (List.mem_cons_of_mem _ mem)
          have fresh : rest.any (·.1 == k) = false := by
            rw [List.any_eq_false]
            intro m mem same
            exact lt_irrefl _ ((sorted.1 _ (List.mem_map_of_mem mem)).trans_eq (eq_of_beq same))
          rw [normalizeMembers]
          simp only [later, fresh, Bool.false_eq_true, if_false]
          rw [insertMember_of_least sorted.1, same _ List.mem_cons_self]
      rw [normalize, sorting]
    | null | bool b | number n | text s => rfl

theorem depthItems_le {items : List Json} {d : Nat} (h : ∀ v ∈ items, v.depth ≤ d) :
    depthItems items ≤ d := by
  induction items with
  | nil => exact Nat.zero_le d
  | cons v rest ih =>
    rw [depthItems]
    exact Nat.max_le.2 ⟨h v List.mem_cons_self, ih fun w mem => h w (List.mem_cons_of_mem _ mem)⟩

theorem depthMembers_le {d : Nat} (h : ∀ m ∈ members, m.2.depth ≤ d) :
    depthMembers members ≤ d := by
  induction members with
  | nil => exact Nat.zero_le d
  | cons m rest ih =>
    obtain ⟨k, v⟩ := m
    rw [depthMembers]
    exact Nat.max_le.2 ⟨h _ List.mem_cons_self, ih fun m mem => h m (List.mem_cons_of_mem _ mem)⟩

/-- Sorting makes nothing deeper. -/
theorem depth_normalize_le (v : Json) : v.normalize.depth ≤ v.depth := by
  induction v using depth_induction with
  | step v ih =>
    cases v with
    | list items =>
      rw [normalize, normalizeItems_eq_map, depth, depth]
      refine Nat.succ_le_succ (depthItems_le fun w mem => ?_)
      obtain ⟨u, there, rfl⟩ := List.mem_map.1 mem
      exact (ih u (depth_item_lt there)).trans (depth_le_depthItems there)
    | object members =>
      rw [normalize, depth, depth]
      refine Nat.succ_le_succ (depthMembers_le fun m mem => ?_)
      obtain ⟨u, there, same⟩ := mem_normalizeMembers m mem
      rw [same]
      exact (ih u (depth_member_lt there)).trans (depth_le_depthMembers there)
    | null | bool b | number n | text s => exact Nat.le_refl _

end Json

end LiteratureReview
