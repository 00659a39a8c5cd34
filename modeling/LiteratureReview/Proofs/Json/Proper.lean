/-
  LiteratureReview.Proofs.Json.Proper
  ───────────────────────────────────
  The JSON values a program can hold.

  The type of values has room for objects that name a key twice and for
  numbers beyond sixty-four bits.  `IsProper` leaves those out; `IsOrdered`
  asks besides that keys ascend, which picks one value among all that
  differ in the order of members only.

    • `every` — a test of all numbers and of all key lists of a value,
    • `depth_get?_lt` — what stands under a key is less deep,
    • `Has`, `May` — a key that has to be given, and one that may be left
      out or be null,
    • `lookup_without` — removing one key leaves the others in place.
-/
import LiteratureReview.Json.Comparison
import Mathlib.Data.List.Nodup

namespace LiteratureReview

open Decimal

/-! ## §1. Tests of all parts of a value. -/

/-- The number is an integer of sixty-four bits, signed or not, or a finite
double. -/
def Number.isProper : Number → Bool
  | .int i => -(twoTo 63 : Int) ≤ i && i < (twoTo 64 : Int)
  | .float x => x.isFinite

namespace Json

section Every

variable (number : Number → Bool) (keys : List String → Bool)

mutual

/-- All numbers and all lists of keys pass a test. -/
def every : Json → Bool
  | .null | .bool _ | .text _ => true
  | .number n => number n
  | .list items => everyItem items
  | .object members => keys (members.map (·.1)) && everyMember members

/-- All numbers and lists of keys in some values pass a test. -/
def everyItem : List Json → Bool
  | [] => true
  | v :: rest => v.every && everyItem rest

/-- All numbers and lists of keys in the values of some members pass a test. -/
def everyMember : List (String × Json) → Bool
  | [] => true
  | (_, v) :: rest => v.every && everyMember rest

end

variable {number : Number → Bool} {keys : List String → Bool}

theorem everyItem_iff {items : List Json} :
    everyItem number keys items = true ↔ ∀ v ∈ items, v.every number keys = true := by
  induction items with
  | nil => simp [everyItem]
  | cons v rest ih => simp [everyItem, ih]

theorem everyMember_iff {members : List (String × Json)} :
    everyMember number keys members = true ↔ ∀ m ∈ members, m.2.every number keys = true := by
  induction members with
  | nil => simp [everyMember]
  | cons m rest ih => simp [everyMember, ih]

@[simp] theorem every_list_iff {items : List Json} :
    (Json.list items).every number keys = true ↔ ∀ v ∈ items, v.every number keys = true := by
  rw [every, everyItem_iff]

@[simp] theorem every_object_iff {members : List (String × Json)} :
    (Json.object members).every number keys = true ↔
      keys (members.map (·.1)) = true ∧ ∀ m ∈ members, m.2.every number keys = true := by
  rw [every, Bool.and_eq_true, everyMember_iff]

end Every

/-- A value a program can hold: keys are distinct and numbers have a form of
sixty-four bits. -/
def IsProper (v : Json) : Prop :=
  v.every Number.isProper (fun keys => keys.Nodup) = true

/-- A value a program can hold, with its members by ascending key. -/
def IsOrdered (v : Json) : Prop :=
  v.every Number.isProper (fun keys => keys.Pairwise (· < ·)) = true

/-- The numbers of a value are numbers that a program can hold, whatever keys its
objects have. -/
def HasProperNumbers (v : Json) : Prop := v.every Number.isProper (fun _ => true) = true

instance (v : Json) : Decidable v.IsProper := inferInstanceAs (Decidable (_ = true))

instance (v : Json) : Decidable v.IsOrdered := inferInstanceAs (Decidable (_ = true))

@[simp] theorem isProper_number_iff {n : Number} :
    (Json.number n).IsProper ↔ n.isProper = true := Iff.rfl

@[simp] theorem isProper_list_iff {items : List Json} :
    (Json.list items).IsProper ↔ ∀ v ∈ items, v.IsProper := every_list_iff

@[simp] theorem isProper_object_iff {members : List (String × Json)} :
    (Json.object members).IsProper ↔
      (members.map (·.1)).Nodup ∧ ∀ m ∈ members, m.2.IsProper := by
  unfold IsProper
  rw [every_object_iff, decide_eq_true_eq]

/-! ## §2. Parts of a value. -/

theorem lookup_cons_ite {α : Type} {members : List (String × α)} (k l : String) (v : α) :
    List.lookup k ((l, v) :: members) = if k = l then some v else members.lookup k := by
  rw [List.lookup_cons]
  by_cases same : k = l
  · rw [if_pos same, same, beq_self_eq_true]
  · rw [if_neg same, beq_false_of_ne same]

/-- What is found under a key stands among the members. -/
theorem mem_of_lookup {α : Type} {members : List (String × α)} {key : String} {w : α}
    (h : members.lookup key = some w) : (key, w) ∈ members := by
  obtain ⟨front, back, rfl, -⟩ := List.lookup_eq_some_iff.1 h
  exact List.mem_append_right front List.mem_cons_self

theorem lookup_eq_none_of_not_mem {α : Type} {members : List (String × α)} {key : String}
    (absent : key ∉ members.map (·.1)) : members.lookup key = none := by
  rw [List.lookup_eq_none_iff]
  intro m mem
  rw [bne_iff_ne]
  rintro rfl
  exact absent (List.mem_map_of_mem mem)

/-- Under distinct keys, every member is found under its key. -/
theorem lookup_of_mem {α : Type} {members : List (String × α)} {key : String} {w : α}
    (distinct : (members.map (·.1)).Nodup) (h : (key, w) ∈ members) :
    members.lookup key = some w := by
  induction members with
  | nil => cases h
  | cons m rest ih =>
    obtain ⟨k, v⟩ := m
    rw [List.map_cons, List.nodup_cons] at distinct
    rw [List.lookup_cons]
    rcases List.mem_cons.1 h with same | later
    · obtain ⟨rfl, rfl⟩ := Prod.mk.inj same
      rw [beq_self_eq_true]
    · have other : key ≠ k := by
        intro same
        exact distinct.1 (List.mem_map.2 ⟨(key, w), later, same⟩)
      rw [beq_false_of_ne other]
      exact ih distinct.2 later

theorem get?_eq_some_iff {v : Json} {key : String} {w : Json} :
    v.get? key = some w ↔ ∃ members, v = .object members ∧ members.lookup key = some w := by
  cases v <;> simp [get?]

theorem depth_le_depthItems {items : List Json} {v : Json} (h : v ∈ items) :
    v.depth ≤ depthItems items := by
  induction items with
  | nil => simp at h
  | cons w rest ih =>
    rw [depthItems]
    rcases List.mem_cons.1 h with rfl | later
    · exact Nat.le_max_left _ _
    · exact Nat.le_trans (ih later) (Nat.le_max_right _ _)

theorem depth_le_depthMembers {members : List (String × Json)} {m : String × Json}
    (h : m ∈ members) : m.2.depth ≤ depthMembers members := by
  induction members with
  | nil => simp at h
  | cons l rest ih =>
    obtain ⟨k, w⟩ := l
    rw [depthMembers]
    rcases List.mem_cons.1 h with rfl | later
    · exact Nat.le_max_left _ _
    · exact Nat.le_trans (ih later) (Nat.le_max_right _ _)

/-- An element is less deep than the list. -/
theorem depth_item_lt {items : List Json} {v : Json} (h : v ∈ items) :
    v.depth < (Json.list items).depth := by
  rw [depth]
  exact Nat.lt_succ_of_le (depth_le_depthItems h)

/-- The value of a member is less deep than the object. -/
theorem depth_member_lt {members : List (String × Json)} {m : String × Json} (h : m ∈ members) :
    m.2.depth < (Json.object members).depth := by
  rw [depth]
  exact Nat.lt_succ_of_le (depth_le_depthMembers h)

/-- What stands under a key is less deep than the object. -/
theorem depth_get?_lt {v : Json} {key : String} {w : Json} (h : v.get? key = some w) :
    w.depth < v.depth := by
  obtain ⟨members, rfl, found⟩ := get?_eq_some_iff.1 h
  exact depth_member_lt (mem_of_lookup found)

/-- What is less deep than a value may be taken for granted. -/
theorem depth_induction {P : Json → Prop} (v : Json)
    (step : ∀ v, (∀ w, w.depth < v.depth → P w) → P v) : P v :=
  (measure depth).wf.induction v step

/-- A weaker test of the keys passes where a stronger one does. -/
theorem every_mono {number : Number → Bool} {keys keys' : List String → Bool}
    (weaker : ∀ names, keys names = true → keys' names = true) {v : Json}
    (h : v.every number keys = true) : v.every number keys' = true := by
  induction v using depth_induction with
  | step v ih =>
    cases v with
    | list items =>
      rw [every_list_iff] at h ⊢
      exact fun w mem => ih w (depth_item_lt mem) (h w mem)
    | object members =>
      rw [every_object_iff] at h ⊢
      exact ⟨weaker _ h.1, fun m mem => ih m.2 (depth_member_lt mem) (h.2 m mem)⟩
    | number n => exact h
    | null | bool b | text s => rfl

theorem IsProper.hasProperNumbers {v : Json} (h : v.IsProper) : v.HasProperNumbers :=
  every_mono (fun _ _ => rfl) h

/-- What stands under a key of a proper value is proper. -/
theorem IsProper.get? {v : Json} {key : String} {w : Json} (h : v.IsProper)
    (found : v.get? key = some w) : w.IsProper := by
  obtain ⟨members, rfl, found⟩ := get?_eq_some_iff.1 found
  exact (isProper_object_iff.1 h).2 _ (mem_of_lookup found)

/-! ## §3. Members by their keys. -/

/-- The key is there, and its value satisfies `P`. -/
def Has (v : Json) (key : String) (P : Json → Prop) : Prop :=
  ∃ w, v.get? key = some w ∧ P w

/-- The key is left out, or null, or its value satisfies `P`. -/
def May (v : Json) (key : String) (P : Json → Prop) : Prop :=
  ∀ w, v.get? key = some w → w = .null ∨ P w

theorem has_congr {v : Json} {key : String} {P Q : Json → Prop}
    (h : ∀ w, v.get? key = some w → (P w ↔ Q w)) : v.Has key P ↔ v.Has key Q := by
  constructor
  · rintro ⟨w, found, hw⟩
    exact ⟨w, found, (h w found).1 hw⟩
  · rintro ⟨w, found, hw⟩
    exact ⟨w, found, (h w found).2 hw⟩

/-- Under a key whose value satisfies `R` it is enough that two demands
agree on such values. -/
theorem has_congr_of {v : Json} {key : String} {P Q R : Json → Prop} (given : v.Has key R)
    (h : ∀ w, R w → (P w ↔ Q w)) : v.Has key P ↔ v.Has key Q := by
  obtain ⟨u, there, hu⟩ := given
  refine has_congr fun w found => h w ?_
  rwa [← Option.some.inj (there.symm.trans found)]

theorem may_congr_of {v : Json} {key : String} {P Q R : Json → Prop} (given : v.May key R)
    (h : ∀ w, R w → (P w ↔ Q w)) : v.May key P ↔ v.May key Q := by
  refine forall₂_congr fun w found => ?_
  rcases given w found with rfl | hw
  · exact ⟨fun _ => .inl rfl, fun _ => .inl rfl⟩
  · exact or_congr_right (h w hw)

/-! ## §4. Removing a key. -/

/-- The members under other keys than one. -/
def without (key : String) (members : List (String × Json)) : List (String × Json) :=
  members.filter (·.1 != key)

theorem lookup_without {members : List (String × Json)} {key tag : String} (h : key ≠ tag) :
    (without tag members).lookup key = members.lookup key := by
  induction members with
  | nil => rfl
  | cons m rest ih =>
    obtain ⟨k, v⟩ := m
    unfold without at ih ⊢
    by_cases hk : k = tag
    · subst hk
      rw [List.filter_cons_of_neg (by simp), List.lookup_cons, ih, beq_false_of_ne h]
    · rw [List.filter_cons_of_pos (by simpa using hk), List.lookup_cons, List.lookup_cons, ih]

theorem get?_without {members : List (String × Json)} {key tag : String} (h : key ≠ tag) :
    (Json.object (without tag members)).get? key = (Json.object members).get? key :=
  lookup_without h

theorem has_without {members : List (String × Json)} {key tag : String} {P : Json → Prop}
    (h : key ≠ tag) :
    (Json.object (without tag members)).Has key P ↔ (Json.object members).Has key P := by
  unfold Has
  rw [get?_without h]

theorem may_without {members : List (String × Json)} {key tag : String} {P : Json → Prop}
    (h : key ≠ tag) :
    (Json.object (without tag members)).May key P ↔ (Json.object members).May key P := by
  unfold May
  rw [get?_without h]

theorem keys_without {members : List (String × Json)} {tag : String}
    (h : (members.map (·.1)).Nodup) : ((without tag members).map (·.1)).Nodup :=
  h.sublist (List.filter_sublist.map _)

/-! ## §5. Comparison. -/

/-- Only a text is the same as a text. -/
theorem same_text_iff {v : Json} {s : String} : v.same (.text s) = true ↔ v = .text s := by
  cases v <;> simp [same]

end Json

end LiteratureReview
