/-
  LiteratureReview.Proofs.Installation.Ownership
  ──────────────────────────────────────────────
  Which row a row belongs to.

  In a database that meets its constraints, a column of owners names exactly one
  row of the table above (`countP_owners`): at least one since references hold, and no
  two since ids are unique.  So what belongs to the rows of a table, one after the
  other, is the whole table below (`belongingTo_perm`).
-/
import LiteratureReview.Proofs.Decimal.Rounding
import LiteratureReview.Proofs.Installation.Lasting
import LiteratureReview.Proofs.Installation.Validity
import Mathlib.Tactic.LinearCombination

namespace LiteratureReview

open Database EntityType

/-! ## §1. Values that agree. -/

namespace Cell

theorem denominator_pos (v : Cell) : 0 < v.denominator := by
  cases v with
  | real x => exact Decimal.twoTo_pos _
  | _ => exact Nat.one_pos

theorem agrees_iff {v w : Cell} :
    v.agrees w = true ↔ (∃ s, v = .text s ∧ w = .text s) ∨ v.rank = 1 ∧ w.rank = 1 ∧
      v.numerator * w.denominator = w.numerator * v.denominator := by
  cases v <;> cases w <;> simp [agrees, rank]
  exact eq_comm

/-- Two values that agree with a third agree with each other. -/
theorem agrees_of_agrees {u v w : Cell} (left : w.agrees u = true) (right : w.agrees v = true) :
    u.agrees v = true := by
  rw [agrees_iff] at left right ⊢
  rcases left with ⟨s, rfl, rfl⟩ | ⟨_, number, left⟩
  · rcases right with ⟨t, same, rfl⟩ | ⟨absurd, -⟩
    · cases same
      exact .inl ⟨s, rfl, rfl⟩
    · cases absurd
  · rcases right with ⟨t, rfl, rfl⟩ | ⟨_, other, right⟩
    · cases ‹(Cell.text t).rank = 1›
    · -- two fractions that are equal to a third
      have positive : (w.denominator : Int) ≠ 0 := by exact_mod_cast w.denominator_pos.ne'
      refine .inr ⟨number, other, Int.eq_of_mul_eq_mul_right positive ?_⟩
      linear_combination u.denominator * right - v.denominator * left

end Cell

/-! ## §2. Rows and the rows they belong to. -/

section Lists

variable {α β : Type} [DecidableEq β] {p : α → β → Bool} {owners : List α} {items : List β}

theorem length_filter_le_one {p : α → Bool}
    (apart : owners.Pairwise fun a b => ¬(p a = true ∧ p b = true)) :
    (owners.filter p).length ≤ 1 := by
  induction owners with
  | nil => exact Nat.zero_le _
  | cons a rest ih =>
    obtain ⟨first, apart⟩ := List.pairwise_cons.1 apart
    by_cases chosen : p a = true
    · have none : rest.filter p = [] :=
        List.filter_eq_nil_iff.2 fun b mem other => first b mem ⟨chosen, other⟩
      rw [List.filter_cons_of_pos chosen, none]
      exact Nat.le_refl 1
    · rw [List.filter_cons_of_neg chosen]
      exact ih apart

theorem count_flatMap_filter (b : β) :
    (owners.flatMap fun a => items.filter (p a)).count b =
      owners.countP (p · b) * items.count b := by
  induction owners with
  | nil => simp
  | cons a rest ih =>
    rw [List.flatMap_cons, List.count_append, ih, List.countP_cons, Nat.add_mul, Nat.add_comm]
    by_cases belongs : p a b = true
    · rw [List.count_filter belongs, if_pos belongs, Nat.one_mul]
    · have none : (items.filter (p a)).count b = 0 :=
        List.count_eq_zero.2 fun mem => belongs (List.mem_filter.1 mem).2
      rw [none, if_neg belongs, Nat.zero_mul]

/-- When each item belongs to exactly one owner, the items of all owners are all items. -/
theorem flatMap_filter_perm (one : ∀ b ∈ items, owners.countP (p · b) = 1) :
    (owners.flatMap fun a => items.filter (p a)).Perm items := by
  refine List.perm_iff_count.2 fun b => ?_
  rw [count_flatMap_filter]
  by_cases mem : b ∈ items
  · rw [one b mem, Nat.one_mul]
  · rw [List.count_eq_zero.2 mem, Nat.mul_zero]

end Lists

/-- A column that always holds the id of a row of another table. -/
def EntityType.Owned (entity : EntityType) (column : String) (owner : EntityType) : Prop :=
  ∃ c ∈ entity.layout.columns, c.name = column ∧ c.nullable = false ∧ c.owner = some owner

instance (entity owner : EntityType) (column : String) : Decidable (entity.Owned column owner) :=
  inferInstanceAs (Decidable (∃ c ∈ _, _))

namespace Database

variable {db : Database} {entity owner : EntityType} {column s : String} {row : Row}
variable (valid : db.MeetsConstraints)

include valid

/-- **Every row belongs to exactly one row of the table above.** -/
theorem countP_owners (owned : entity.Owned column owner) (mem : row ∈ db.rows entity) :
    (db.rows owner).countP
      (fun o => (entity.cellAt column row).agrees (owner.cellAt "id" o)) = 1 := by
  obtain ⟨c, known, rfl, needed, refers⟩ := owned
  have holds := valid.holds entity
  have given : entity.cellAt c.name row ≠ .null := holds.ne_null mem known needed
  have ref : (owner, entity.cellAt c.name row) ∈ entity.references row :=
    mem_references.2 ⟨c, cellAt_mem_zip known (holds.whole row mem), refers⟩
  -- there is one, for the reference holds
  have some : 0 < (db.rows owner).countP
      (fun o => (entity.cellAt c.name row).agrees (owner.cellAt "id" o)) := by
    rcases referencesHold_iff.1 (valid.references entity row mem) _ ref with missing | there
    · exact absurd missing given
    · obtain ⟨o, stored, same⟩ := hasId_iff.1 there
      exact List.countP_pos_iff.2 ⟨o, stored, by rw [Cell.agrees_comm]; exact same⟩
  -- and no other, for ids are unique
  have single : (db.rows owner).countP
      (fun o => (entity.cellAt c.name row).agrees (owner.cellAt "id" o)) ≤ 1 := by
    rw [List.countP_eq_length_filter]
    refine length_filter_le_one ((valid.holds owner).apart.imp fun apart both => apart ?_)
    refine ⟨["id"], id_mem_keys owner, ?_⟩
    rw [sameKey_singleton]
    exact Cell.agrees_of_agrees both.1 both.2
  omega

/-- **What belongs to the rows of a table** is the table below, in another order. -/
theorem belongingTo_perm (owned : entity.Owned column owner) :
    (db.belongingTo entity column owner (db.rows owner)).Perm (db.rows entity) :=
  flatMap_filter_perm fun _ mem => countP_owners valid owned mem

/-- Rows that are unique by a column are found one at a time. -/
theorem length_having_le_one (key : [column] ∈ entity.layout.keys) :
    (db.having entity column s).length ≤ 1 := by
  refine length_filter_le_one ((valid.holds entity).apart.imp fun apart both => apart ?_)
  refine ⟨[column], key, ?_⟩
  rw [sameKey_singleton]
  rw [Cell.agrees_comm] at both
  exact Cell.agrees_of_agrees both.1 (by rw [Cell.agrees_comm]; exact both.2)

omit valid in
theorem belongingTo_flatMap {α : Type} {items : List α} {rows : α → List Row} :
    db.belongingTo entity column owner (items.flatMap rows) =
      items.flatMap fun a => db.belongingTo entity column owner (rows a) :=
  List.flatMap_assoc

/-- The rows of a table, in any order, have all the rows of the table below. -/
theorem belongingTo_perm_of_perm {rows : List Row} (owned : entity.Owned column owner)
    (all : rows.Perm (db.rows owner)) :
    (db.belongingTo entity column owner rows).Perm (db.rows entity) :=
  (all.flatMap_right _).trans (belongingTo_perm valid owned)

end Database

end LiteratureReview
