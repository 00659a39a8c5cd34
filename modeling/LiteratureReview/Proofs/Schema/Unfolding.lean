/-
  LiteratureReview.Proofs.Schema.Unfolding
  ────────────────────────────────────────
  References are followed as far as there is anything to follow.

  A document is checked with a number of references to go, which depends on
  the depth of the value.  Here it is shown that the number is never reached
  when the definitions can be ranked: a definition that is applied to a value
  refers to definitions of the same value only of lower rank, and to any
  definition of what lies inside the value.

    • `violations_congr` — two ways to answer references that agree where a
      schema asks them give the same violations,
    • `lookup_congr` — beyond the rank and the depth, more references to go
      change nothing,
    • `answer_eq`, `violations_eq` — so a reference can be replaced by its
      definition, and the number of references left out of account.
-/
import LiteratureReview.Proofs.Schema.Acceptance

namespace LiteratureReview

open Json

namespace Schema

/-! ## §1. Where references are asked. -/

mutual

/-- The definitions that a schema applies to the value itself. -/
def refs : Schema → List String
  | .ref name => [name]
  | .all parts => refsAll parts
  | .any branches => refsAll branches
  | .one branches => refsAll branches
  | .negate part => refs part
  | .conditional test consequence alternative =>
    refs test ++ refs consequence ++ refs alternative
  | .always | .never | .type _ | .constant _ | .enumeration _ | .limit _ | .extent _ | .pattern _
  | .required _ | .properties _ | .elements _ => []

/-- The definitions that some schemas apply to the value itself. -/
def refsAll : List Schema → List String
  | [] => []
  | s :: rest => refs s ++ refsAll rest

end

/-- Two ways to answer references agree at a value. -/
def AgreeAt (resolve resolve' : Resolver) (name : String) (v : Json) : Prop :=
  ∀ p, resolve name p v = resolve' name p v

/-- Two ways to answer references agree on whatever lies inside a value. -/
def AgreeBelow (resolve resolve' : Resolver) (v : Json) : Prop :=
  ∀ w, w.depth < v.depth → ∀ name, AgreeAt resolve resolve' name w

section

variable {resolve resolve' : Resolver}

theorem AgreeBelow.down {v w : Json} (h : AgreeBelow resolve resolve' v)
    (inside : w.depth < v.depth) : AgreeBelow resolve resolve' w :=
  fun u lower => h u (Nat.lt_trans lower inside)

/-- The elements of a list lie inside it. -/
theorem depth_elementsOf_lt {p : Pointer} {v : Json} {e : Pointer × Json}
    (h : e ∈ elementsOf p v) : e.2.depth < v.depth := by
  cases v with
  | list items =>
    obtain ⟨i, small, rfl⟩ := List.mem_mapIdx.1 h
    exact depth_item_lt (List.getElem_mem small)
  | _ => cases h

mutual

/-- **What a schema finds depends on the answers it asks for**: those for its own
references at the value, and any answers inside the value. -/
theorem violations_congr : (s : Schema) → (p : Pointer) → (v : Json) →
    (∀ name ∈ refs s, AgreeAt resolve resolve' name v) → AgreeBelow resolve resolve' v →
      violations resolve s p v = violations resolve' s p v
  | .always, _, _, _, _ => rfl
  | .never, _, _, _, _ => rfl
  | .ref name, p, _, here, _ => here name (by simp [refs]) p
  | .all parts, p, v, here, below => violationsAll_congr parts p v here below
  | .any branches, p, v, here, below => by
    rw [violations, violations, countHolding_congr branches p v here below]
  | .one branches, p, v, here, below => by
    rw [violations, violations, countHolding_congr branches p v here below]
  | .negate part, p, v, here, below => by
    rw [violations, violations, violations_congr part p v here below]
  | .conditional test consequence alternative, p, v, here, below => by
    simp only [refs, List.mem_append] at here
    rw [violations, violations,
      violations_congr test p v (fun n mem => here n (.inl (.inl mem))) below,
      violations_congr consequence p v (fun n mem => here n (.inl (.inr mem))) below,
      violations_congr alternative p v (fun n mem => here n (.inr mem)) below]
  | .type _, _, _, _, _ => rfl
  | .constant _, _, _, _, _ => rfl
  | .enumeration _, _, _, _, _ => rfl
  | .limit _, _, _, _, _ => rfl
  | .extent _, _, _, _, _ => rfl
  | .pattern _, _, _, _, _ => rfl
  | .required _, _, _, _, _ => rfl
  | .properties schemas, p, v, _, below => violationsOfMembers_congr schemas p v below
  | .elements schema, p, v, _, below => by
    rw [violations, violations]
    -- what is asked of an element is asked inside the value
    refine List.flatMap_congr fun e mem => ?_
    have inside := depth_elementsOf_lt mem
    exact violations_congr schema e.1 e.2 (fun name _ => below e.2 inside name)
      (below.down inside)

theorem violationsAll_congr : (parts : List Schema) → (p : Pointer) → (v : Json) →
    (∀ name ∈ refsAll parts, AgreeAt resolve resolve' name v) → AgreeBelow resolve resolve' v →
      violationsAll resolve parts p v = violationsAll resolve' parts p v
  | [], _, _, _, _ => rfl
  | s :: rest, p, v, here, below => by
    simp only [refsAll, List.mem_append] at here
    rw [violationsAll, violationsAll, violations_congr s p v (fun n mem => here n (.inl mem)) below,
      violationsAll_congr rest p v (fun n mem => here n (.inr mem)) below]

theorem countHolding_congr : (branches : List Schema) → (p : Pointer) → (v : Json) →
    (∀ name ∈ refsAll branches, AgreeAt resolve resolve' name v) →
      AgreeBelow resolve resolve' v →
        countHolding resolve branches p v = countHolding resolve' branches p v
  | [], _, _, _, _ => rfl
  | s :: rest, p, v, here, below => by
    simp only [refsAll, List.mem_append] at here
    rw [countHolding, countHolding, violations_congr s p v (fun n mem => here n (.inl mem)) below,
      countHolding_congr rest p v (fun n mem => here n (.inr mem)) below]

theorem violationsOfMembers_congr : (schemas : List (String × Schema)) → (p : Pointer) →
    (v : Json) → AgreeBelow resolve resolve' v →
      violationsOfMembers resolve schemas p v = violationsOfMembers resolve' schemas p v
  | [], _, _, _ => rfl
  | (key, s) :: rest, p, v, below => by
    rw [violationsOfMembers, violationsOfMembers, violationsOfMembers_congr rest p v below]
    cases found : v.get? key with
    | none => rfl
    | some w =>
      have inside := depth_get?_lt found
      show violations resolve s _ w ++ _ = violations resolve' s _ w ++ _
      rw [violations_congr s _ w (fun name _ => below w inside name) (below.down inside)]

end

end

end Schema

/-! ## §2. Ranked definitions. -/

namespace SchemaDocument

open Schema

/-- The definitions of a value refer to definitions of lower rank. -/
structure IsRanked (d : SchemaDocument) (rank : String → Nat) : Prop where
  lower : ∀ e ∈ d.definitions, ∀ name ∈ e.2.refs, rank name < rank e.1
  bounded : ∀ name, rank name ≤ d.definitions.length

variable {d : SchemaDocument} {rank : String → Nat} {name : String}

theorem IsRanked.rank_lt (h : d.IsRanked rank) {s : Schema}
    (found : d.definitions.lookup name = some s) : ∀ n ∈ s.refs, rank n < rank name :=
  h.lower (name, s) (mem_of_lookup found)

/-- References that suffice for a value suffice for what lies inside it. -/
theorem enough_below {r s k n : Nat} {v w : Json} (bounded : s ≤ k) (inside : w.depth < v.depth)
    (enough : r + (k + 1) * v.depth < n + 1) : s + (k + 1) * w.depth < n := by
  -- a level is worth as many references as there can be ranks
  have step : (k + 1) * (w.depth + 1) ≤ (k + 1) * v.depth := Nat.mul_le_mul_left _ inside
  rw [Nat.mul_succ] at step
  omega

/-- **Beyond its rank and the depth of the value, a reference is answered the same
however many references there are to go.** -/
theorem lookup_congr (h : d.IsRanked rank) {n m : Nat} {v : Json}
    (hn : rank name + (d.definitions.length + 1) * v.depth < n)
    (hm : rank name + (d.definitions.length + 1) * v.depth < m) :
    AgreeAt (d.lookup n) (d.lookup m) name v := by
  induction n generalizing m name v with
  | zero => omega
  | succ n ih =>
    intro p
    cases m with
    | zero => omega
    | succ m =>
      rw [lookup, lookup]
      cases found : d.definitions.lookup name with
      | none => rfl
      | some s =>
        -- on the same value the rank goes down; inside, it may rise again, but the depth goes down
        refine violations_congr s p v (fun name' mem => ?_) fun w inside name' => ?_
        · have := h.rank_lt found name' mem
          exact ih (by omega) (by omega)
        · exact ih (enough_below (h.bounded name') inside hn)
            (enough_below (h.bounded name') inside hm)

/-- How references are answered, with as many to go as the value may need. -/
def answer (d : SchemaDocument) : Resolver := fun name p v => d.lookup (d.references v) name p v

theorem references_eq (v : Json) :
    d.references v = (d.definitions.length + 1) * v.depth + (d.definitions.length + 1) := by
  rw [references, Nat.mul_comm, Nat.mul_succ]

theorem lt_references (h : d.IsRanked rank) (name : String) (v : Json) :
    rank name + (d.definitions.length + 1) * v.depth < d.references v := by
  have := h.bounded name
  rw [references_eq]
  omega

/-- Inside a value there are enough references left of those the value may need. -/
theorem agreeBelow_answer (h : d.IsRanked rank) {n : Nat} {v : Json}
    (enough : (d.definitions.length + 1) * v.depth < n + 1) :
    AgreeBelow (d.lookup n) d.answer v :=
  fun w inside name =>
    lookup_congr h (enough_below (r := 0) (h.bounded name) inside (by omega))
      (lt_references h name w)

/-- **A reference stands for its definition.** -/
theorem answer_eq (h : d.IsRanked rank) {s : Schema}
    (found : d.definitions.lookup name = some s) (p : Pointer) (v : Json) :
    d.answer name p v = s.violations d.answer p v := by
  have enough := lt_references h name v
  obtain ⟨n, more⟩ : ∃ n, d.references v = n + 1 := ⟨d.references v - 1, by omega⟩
  rw [more] at enough
  show d.lookup (d.references v) name p v = _
  rw [more, lookup, found]
  refine violations_congr s p v (fun name' mem => ?_) (agreeBelow_answer h (by omega))
  have := h.rank_lt found name' mem
  exact lookup_congr h (by omega) (lt_references h name' v)

/-- The violations of a document, references being answered by definitions. -/
theorem violations_eq (h : d.IsRanked rank) (v : Json) :
    d.violations v = d.root.violations d.answer [] v := by
  refine violations_congr d.root [] v (fun name _ _ => rfl) (agreeBelow_answer h ?_)
  rw [references_eq]
  omega

end SchemaDocument

end LiteratureReview
