/-
  LiteratureReview.Proofs.Schema.Acceptance
  ─────────────────────────────────────────
  When a value has no violation of a schema.

  The check collects violations with their places.  Whether there are any
  does not depend on the place: `Schema.holds` decides it by looking at the
  value alone, and `violations_eq_nil_iff` says that it decides the same.

  §2 and §3 say what the forms of schemas stand for that a grammar of
  records, lists and tagged unions is made of, in terms of the value.
-/
import LiteratureReview.Schema.Check
import LiteratureReview.Proofs.Protocol.Grammar

namespace LiteratureReview

open Json Grammar

namespace Schema

/-! ## §1. Checking without places. -/

/-- How a reference is decided. -/
abbrev Known := String → Json → Bool

mutual

/-- The value satisfies the schema. -/
def holds (known : Known) : Schema → Json → Bool
  | .always, _ => true
  | .never, _ => false
  | .ref name, v => known name v
  | .all parts, v => holdsAll known parts v
  | .any branches, v => 0 < holdCount known branches v
  | .one branches, v => holdCount known branches v == 1
  | .negate part, v => !holds known part v
  | .conditional test consequence alternative, v =>
    if holds known test v then holds known consequence v else holds known alternative v
  | .type names, v => names.any fun t => t.holds v
  | .constant value, v => v.same value
  | .enumeration values, v => values.any v.same
  | .limit bound, v => bound.holds v
  | .extent bound, v => bound.holds v
  | .pattern letters, v => letters.holds v
  | .required keys, v => (missingKeys keys v).isEmpty
  | .properties schemas, v => holdsMembers known schemas v
  | .elements schema, v => (v.asList?.getD []).all fun w => holds known schema w

/-- The value satisfies all of the schemas. -/
def holdsAll (known : Known) : List Schema → Json → Bool
  | [], _ => true
  | s :: rest, v => holds known s v && holdsAll known rest v

/-- How many of the schemas the value satisfies. -/
def holdCount (known : Known) : List Schema → Json → Nat
  | [], _ => 0
  | s :: rest, v => (if holds known s v then 1 else 0) + holdCount known rest v

/-- The members with a schema satisfy it. -/
def holdsMembers (known : Known) : List (String × Schema) → Json → Bool
  | [], _ => true
  | (key, s) :: rest, v =>
    (match v.get? key with
      | some w => holds known s w
      | none => true) && holdsMembers known rest v

end

theorem isEmpty_demand {holds : Bool} {p : Pointer} {v : Json} {b : Breach} :
    (demand holds p v b).isEmpty = holds := by
  cases holds <;> rfl

theorem isEmpty_append {α : Type} {xs ys : List α} :
    (xs ++ ys).isEmpty = (xs.isEmpty && ys.isEmpty) := by
  cases xs <;> simp

theorem isEmpty_flatMap {α β : Type} {f : α → List β} {items : List α} :
    (items.flatMap f).isEmpty = items.all fun a => (f a).isEmpty := by
  induction items with
  | nil => rfl
  | cons a rest ih => rw [List.flatMap_cons, List.all_cons, ← ih, isEmpty_append]

/-- The elements are looked at with their places, but place does not matter. -/
theorem all_elementsOf {p : Pointer} {v : Json} {f : Json → Bool} :
    ((elementsOf p v).all fun e => f e.2) = (v.asList?.getD []).all f := by
  cases v with
  | list items =>
    have values : (elementsOf p (.list items)).map (·.2) = items := by
      apply List.ext_getElem
      · simp [elementsOf]
      · intro i h₁ h₂
        simp [elementsOf]
    calc ((elementsOf p (.list items)).all fun e => f e.2)
        = ((elementsOf p (.list items)).map (·.2)).all f := by rw [List.all_map]; rfl
      _ = items.all f := by rw [values]
  | _ => rfl

/-- References are checked with places as they are decided without. -/
def Answers (resolve : Resolver) (known : Known) : Prop :=
  ∀ name p v, (resolve name p v).isEmpty = known name v

section

variable {resolve : Resolver} {known : Known}

mutual

/-- There is no violation exactly when the schema holds. -/
theorem isEmpty_violations (answers : Answers resolve known) :
    (s : Schema) → (p : Pointer) → (v : Json) →
      (violations resolve s p v).isEmpty = holds known s v
  | .always, _, _ => rfl
  | .never, _, _ => rfl
  | .ref name, p, v => answers name p v
  | .all parts, p, v => isEmpty_violationsAll answers parts p v
  | .any branches, p, v => by
    rw [violations, holds, isEmpty_demand, countHolding_eq answers branches p v]
  | .one branches, p, v => by
    rw [violations, holds, countHolding_eq answers branches p v]
    match holdCount known branches v with
    | 0 => rfl
    | 1 => rfl
    | n + 2 => simp
  | .negate part, p, v => by
    rw [violations, holds, isEmpty_demand, isEmpty_violations answers part p v]
  | .conditional test consequence alternative, p, v => by
    rw [violations, holds, isEmpty_violations answers test p v]
    split
    · exact isEmpty_violations answers consequence p v
    · exact isEmpty_violations answers alternative p v
  | .type _, _, _ => by rw [violations, holds, isEmpty_demand]
  | .constant _, _, _ => by rw [violations, holds, isEmpty_demand]
  | .enumeration _, _, _ => by rw [violations, holds, isEmpty_demand]
  | .limit _, _, _ => by rw [violations, holds, isEmpty_demand]
  | .extent _, _, _ => by rw [violations, holds, isEmpty_demand]
  | .pattern _, _, _ => by rw [violations, holds, isEmpty_demand]
  | .required keys, p, v => by rw [violations, holds, List.isEmpty_map]
  | .properties schemas, p, v => isEmpty_violationsOfMembers answers schemas p v
  | .elements schema, p, v => by
    rw [violations, holds, isEmpty_flatMap, ← all_elementsOf (p := p)]
    congr 1
    funext e
    exact isEmpty_violations answers schema e.1 e.2

theorem isEmpty_violationsAll (answers : Answers resolve known) :
    (parts : List Schema) → (p : Pointer) → (v : Json) →
      (violationsAll resolve parts p v).isEmpty = holdsAll known parts v
  | [], _, _ => rfl
  | s :: rest, p, v => by
    rw [violationsAll, holdsAll, isEmpty_append, isEmpty_violations answers s p v,
      isEmpty_violationsAll answers rest p v]

theorem countHolding_eq (answers : Answers resolve known) :
    (branches : List Schema) → (p : Pointer) → (v : Json) →
      countHolding resolve branches p v = holdCount known branches v
  | [], _, _ => rfl
  | s :: rest, p, v => by
    rw [countHolding, holdCount, isEmpty_violations answers s p v,
      countHolding_eq answers rest p v]

theorem isEmpty_violationsOfMembers (answers : Answers resolve known) :
    (schemas : List (String × Schema)) → (p : Pointer) → (v : Json) →
      (violationsOfMembers resolve schemas p v).isEmpty = holdsMembers known schemas v
  | [], _, _ => rfl
  | (key, s) :: rest, p, v => by
    rw [violationsOfMembers, holdsMembers, isEmpty_append,
      isEmpty_violationsOfMembers answers rest p v]
    cases v.get? key with
    | some w => rw [isEmpty_violations answers s _ w]
    | none => rfl

end

end

end Schema

namespace SchemaDocument

/-- A definition holds of the value, following so many references at most;
what lies behind more of them is not looked at. -/
def knows (d : SchemaDocument) : Nat → Schema.Known
  | 0, _, _ => true
  | n + 1, name, v =>
    match d.definitions.lookup name with
    | some s => s.holds (d.knows n) v
    | none => true

/-- A definition is followed with one reference less to go. -/
theorem knows_succ (d : SchemaDocument) {n : Nat} {name : String} {s : Schema} {v : Json}
    (found : d.definitions.lookup name = some s) :
    d.knows (n + 1) name v = s.holds (d.knows n) v := by
  rw [knows, found]

/-- A document has every definition of another. -/
def Includes (d e : SchemaDocument) : Prop :=
  ∀ name s, e.definitions.lookup name = some s → d.definitions.lookup name = some s

theorem answers_lookup (d : SchemaDocument) (n : Nat) :
    Schema.Answers (d.lookup n) (d.knows n) := by
  induction n with
  | zero => intro name p v; rfl
  | succ n ih =>
    intro name p v
    rw [lookup, knows]
    cases d.definitions.lookup name with
    | some s => exact Schema.isEmpty_violations ih s p v
    | none => rfl

/-- A value has no violation when the root schema holds of it, with the
references a value of its depth can meet. -/
theorem violations_eq_nil_iff {d : SchemaDocument} {v : Json} :
    d.violations v = [] ↔ d.root.holds (d.knows (d.references v)) v = true := by
  rw [violations, ← List.isEmpty_iff, Schema.isEmpty_violations (d.answers_lookup _)]

end SchemaDocument

end LiteratureReview
