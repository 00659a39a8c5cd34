/-
  LiteratureReview.Proofs.Schema.Places
  ─────────────────────────────────────
  What a violation says about the value it was found in.

  A violation stands at a place of the value, reports what is there, and
  breaks something the schema demands; all three are read off the schema
  (`isBy_of_mem_violations`).  So in one value the text of a violation says
  no more than its place and its wording, the value left out
  (`toFieldError_eq_iff`), and taking out repeated texts takes out the same
  violations as taking out repeated outlines.
-/
import LiteratureReview.Proofs.Json.Pointers
import LiteratureReview.Proofs.Schema.Outline
import LiteratureReview.Validation.Validator

namespace LiteratureReview

open Json

/-! ## §1. What can be broken. -/

namespace Schema

mutual

/-- What a schema demands by itself, references left out. -/
def breaches : Schema → List Breach
  | .always | .ref _ => []
  | .never => [.never]
  | .all parts => breachesAll parts
  | .any _ => [.noneOfAny]
  | .one _ => [.noneOfOne, .severalOfOne]
  | .negate _ => [.negated]
  | .conditional _ consequence alternative => breaches consequence ++ breaches alternative
  | .type names => [.type names]
  | .constant value => [.constant value]
  | .enumeration values => [.enumeration values]
  | .limit bound => [.limit bound]
  | .extent bound => [.extent bound]
  | .pattern letters => [.pattern letters.source]
  | .required keys => keys.map .missing
  | .properties schemas => breachesOfMembers schemas
  | .elements schema => breaches schema

/-- What schemas demand that all have to hold. -/
def breachesAll : List Schema → List Breach
  | [] => []
  | s :: rest => breaches s ++ breachesAll rest

/-- What is demanded of members. -/
def breachesOfMembers : List (String × Schema) → List Breach
  | [] => []
  | (_, s) :: rest => breaches s ++ breachesOfMembers rest

end

end Schema

/-- The violation stands at or below a place, where the value is, and breaks one of the
things that can be broken. -/
structure Violation.IsBy (x : Violation) (possible : List Breach) (p : Pointer) (v : Json) :
    Prop where
  stands : ∃ rest, x.place = p ++ rest ∧ v.at? rest = some x.value
  breaks : x.breach ∈ possible

namespace Violation.IsBy

variable {x : Violation} {possible : List Breach} {p : Pointer} {v : Json}

/-- A violation by the value itself. -/
theorem here {b : Breach} (mem : b ∈ possible) : Violation.IsBy ⟨p, v, b⟩ possible p v :=
  ⟨⟨[], (List.append_nil p).symm, rfl⟩, mem⟩

/-- A violation inside the value one step further in. -/
theorem inside {s : Step} {w : Json} (step : v.step? s = some w)
    (h : x.IsBy possible (p ++ [s]) w) : x.IsBy possible p v := by
  obtain ⟨⟨rest, place, stands⟩, breaks⟩ := h
  refine ⟨⟨s :: rest, ?_, ?_⟩, breaks⟩
  · rw [place, List.append_assoc, List.singleton_append]
  · rw [Json.at?, step, Option.bind_some, stands]

theorem of_mem_demand {holds : Bool} {b : Breach} (found : x ∈ demand holds p v b)
    (mem : b ∈ possible) : x.IsBy possible p v := by
  unfold demand at found
  split at found
  · cases found
  · obtain rfl := List.mem_singleton.1 found
    exact .here mem

end Violation.IsBy

/-! ## §2. Violations of a schema. -/

namespace Schema

/-- Whatever a reference is answered stands where the value is. -/
def AnswersAt (resolve : Resolver) (possible : List Breach) : Prop :=
  ∀ name p v, ∀ x ∈ resolve name p v, x.IsBy possible p v

section

variable {resolve : Resolver} {possible : List Breach} {x : Violation}

mutual

/-- **A violation stands where the value is and breaks what the schema demands.** -/
theorem isBy_of_mem_violations (answers : AnswersAt resolve possible) :
    (s : Schema) → (∀ b ∈ breaches s, b ∈ possible) → (p : Pointer) → (v : Json) →
      x ∈ violations resolve s p v → x.IsBy possible p v
  | .always, _, _, _, found => nomatch found
  | .never, known, p, v, found => by
    obtain rfl := List.mem_singleton.1 found
    exact .here (known _ (by simp [breaches]))
  | .ref name, _, p, v, found => answers name p v x found
  | .all parts, known, p, v, found => isBy_of_mem_violationsAll answers parts known p v found
  | .any branches, known, p, v, found => .of_mem_demand found (known _ (by simp [breaches]))
  | .one branches, known, p, v, found => by
    rw [violations] at found
    split at found
    · obtain rfl := List.mem_singleton.1 found
      exact .here (known _ (by simp [breaches]))
    · cases found
    · obtain rfl := List.mem_singleton.1 found
      exact .here (known _ (by simp [breaches]))
  | .negate part, known, p, v, found => .of_mem_demand found (known _ (by simp [breaches]))
  | .conditional test consequence alternative, known, p, v, found => by
    simp only [breaches, List.mem_append] at known
    rw [violations] at found
    split at found
    · exact isBy_of_mem_violations answers consequence (fun b mem => known b (.inl mem)) p v found
    · exact isBy_of_mem_violations answers alternative (fun b mem => known b (.inr mem)) p v found
  | .type names, known, p, v, found => .of_mem_demand found (known _ (by simp [breaches]))
  | .constant value, known, p, v, found => .of_mem_demand found (known _ (by simp [breaches]))
  | .enumeration values, known, p, v, found => .of_mem_demand found (known _ (by simp [breaches]))
  | .limit bound, known, p, v, found => .of_mem_demand found (known _ (by simp [breaches]))
  | .extent bound, known, p, v, found => .of_mem_demand found (known _ (by simp [breaches]))
  | .pattern letters, known, p, v, found => .of_mem_demand found (known _ (by simp [breaches]))
  | .required keys, known, p, v, found => by
    obtain ⟨key, missing, rfl⟩ := List.mem_map.1 found
    refine .here (known _ (List.mem_map_of_mem ?_))
    cases v with
    | object members => exact List.mem_of_mem_filter missing
    | _ => cases missing
  | .properties schemas, known, p, v, found => isBy_of_mem_members answers schemas known p v found
  | .elements schema, known, p, v, found => by
    obtain ⟨e, element, found⟩ := List.mem_flatMap.1 found
    have inner := isBy_of_mem_violations answers schema known e.1 e.2 found
    cases v with
    | list items =>
      obtain ⟨i, small, rfl⟩ := List.mem_mapIdx.1 element
      exact inner.inside (s := .element i) (List.getElem?_eq_getElem small)
    | _ => cases element

theorem isBy_of_mem_violationsAll (answers : AnswersAt resolve possible) :
    (parts : List Schema) → (∀ b ∈ breachesAll parts, b ∈ possible) → (p : Pointer) → (v : Json) →
      x ∈ violationsAll resolve parts p v → x.IsBy possible p v
  | [], _, _, _, found => nomatch found
  | s :: rest, known, p, v, found => by
    simp only [breachesAll, List.mem_append] at known
    rcases List.mem_append.1 found with found | found
    · exact isBy_of_mem_violations answers s (fun b mem => known b (.inl mem)) p v found
    · exact isBy_of_mem_violationsAll answers rest (fun b mem => known b (.inr mem)) p v found

theorem isBy_of_mem_members (answers : AnswersAt resolve possible) :
    (schemas : List (String × Schema)) → (∀ b ∈ breachesOfMembers schemas, b ∈ possible) →
      (p : Pointer) → (v : Json) → x ∈ violationsOfMembers resolve schemas p v →
        x.IsBy possible p v
  | [], _, _, _, found => nomatch found
  | (key, s) :: rest, known, p, v, found => by
    simp only [breachesOfMembers, List.mem_append] at known
    rcases List.mem_append.1 found with found | found
    · cases there : v.get? key with
      | none =>
        rw [there] at found
        cases found
      | some w =>
        rw [there] at found
        have inner :=
          isBy_of_mem_violations answers s (fun b mem => known b (.inl mem)) _ w found
        exact inner.inside (s := .member key) there
    · exact isBy_of_mem_members answers rest (fun b mem => known b (.inr mem)) p v found

end

end

end Schema

namespace SchemaDocument

open Schema

variable {d : SchemaDocument} {x : Violation}

/-- What a document of schemas demands anywhere. -/
def breaches (d : SchemaDocument) : List Breach :=
  d.root.breaches ++ d.definitions.flatMap fun e => e.2.breaches

theorem answersAt_lookup (d : SchemaDocument) (n : Nat) : AnswersAt (d.lookup n) d.breaches := by
  -- without references to go nothing is answered
  induction n with
  | zero =>
    intro name p v x found
    cases found
  | succ n ih =>
    intro name p v x found
    rw [lookup] at found
    cases defined : d.definitions.lookup name with
    | none =>
      rw [defined] at found
      cases found
    | some s =>
      rw [defined] at found
      refine isBy_of_mem_violations ih s (fun b mem => ?_) p v found
      exact List.mem_append_right _
        (List.mem_flatMap.2 ⟨(name, s), mem_of_lookup defined, mem⟩)

/-- **Every violation stands in the value, and breaks what the document demands.** -/
theorem isBy_of_mem_violations {v : Json} (found : x ∈ d.violations v) :
    x.IsBy d.breaches [] v :=
  Schema.isBy_of_mem_violations (answersAt_lookup d _) d.root
    (fun _ mem => List.mem_append_left _ mem) [] v found

end SchemaDocument

/-! ## §3. Wording. -/

/-- How a message mentions the value it is about. -/
inductive Wording where
  /-- The value, and a text behind it. -/
  | behind (words : String)
  /-- A text that does not mention the value. -/
  | alone (words : String)
  /-- A text, and the value behind it. -/
  | before (words : String)
  deriving DecidableEq, Repr

/-- The message about a value. -/
def Wording.about (v : Json) : Wording → String
  | .behind words => v.print ++ words
  | .alone words => words
  | .before words => words ++ v.print

/-- How a breach is worded. -/
def Breach.wording : Breach → Wording
  | .type wanted => .behind (" is not of " ++ quotedTypes wanted)
  | .missing key => .alone (Json.printText key ++ " is a required property")
  | .constant wanted => .alone (wanted.print ++ " was expected")
  | .enumeration wanted => .behind (" is not one of " ++ (Json.list wanted).print)
  | .limit bound => .behind (" " ++ bound.complaint)
  | .extent bound => .behind (" " ++ bound.complaint)
  | .pattern source => .behind (" does not match \"" ++ source ++ "\"")
  | .noneOfAny => .behind " is not valid under any of the schemas listed in the 'anyOf' keyword"
  | .noneOfOne => .behind " is not valid under any of the schemas listed in the 'oneOf' keyword"
  | .severalOfOne =>
    .behind " is valid under more than one of the schemas listed in the 'oneOf' keyword"
  | .negated => .behind " is not allowed"
  | .never => .before "False schema does not allow "

theorem Violation.message_eq (x : Violation) : x.message = x.breach.wording.about x.value := by
  obtain ⟨p, v, b⟩ := x
  cases b <;> simp [Violation.message, Breach.wording, Wording.about, String.append_assoc]

/-- The last letters of a text, from behind. -/
def closing (words : String) : List Char := words.toList.reverse.take 4

/-- The messages that do not mention the value end in `property` or `expected`, and others do
not. -/
def Wording.isTold : Wording → Bool
  | .behind words => closing words != ['y', 't', 'r', 'e'] && closing words != ['d', 'e', 't', 'c']
      && words.length ≥ 4
  | .alone words => closing words == ['y', 't', 'r', 'e'] || closing words == ['d', 'e', 't', 'c']
  | .before _ => false

theorem closing_append {words : String} (long : 4 ≤ words.length) (front : String) :
    closing (front ++ words) = closing words := by
  rw [closing, closing, String.toList_append, List.reverse_append,
    List.take_append_of_le_length (by rwa [List.length_reverse, String.length_toList])]

theorem isTold_missing (key : String) : (Breach.missing key).wording.isTold = true := by
  rw [Breach.wording, Wording.isTold, closing_append (by decide)]
  decide

theorem isTold_constant (wanted : Json) : (Breach.constant wanted).wording.isTold = true := by
  rw [Breach.wording, Wording.isTold, closing_append (by decide)]
  decide

/-- **Of one value, wordings that are told apart by their ends give different messages.** -/
theorem Wording.about_injective {a b : Wording} {v : Json} (left : a.isTold = true)
    (right : b.isTold = true) (same : a.about v = b.about v) : a = b := by
  -- what mentions the value ends otherwise than what does not
  have apart : ∀ {x y : String}, (Wording.behind x).isTold = true →
      (Wording.alone y).isTold = true → v.print ++ x ≠ y := by
    rintro x y behind alone rfl
    simp only [isTold, Bool.and_eq_true, bne_iff_ne, ne_eq, decide_eq_true_eq,
      Bool.or_eq_true, beq_iff_eq] at behind alone
    rw [closing_append behind.2] at alone
    exact alone.elim behind.1.1 behind.1.2
  match a, b, left, right, same with
  | .behind x, .behind y, _, _, same => rw [(String.append_right_inj _).1 same]
  | .behind x, .alone y, left, right, same => exact absurd same (apart left right)
  | .alone x, .behind y, left, right, same => exact absurd same.symm (apart right left)
  | .alone x, .alone y, _, _, same => rw [show x = y from same]

/-! ## §4. Repetitions. -/

/-- The place of a violation, and how it is worded. -/
def Violation.claim (x : Violation) : Pointer × Wording := (x.place, x.breach.wording)

/-- In one value a violation is told apart by its place and its wording. -/
theorem Violation.IsBy.toFieldError_eq_iff {possible : List Breach} {v : Json} {x y : Violation}
    (told : ∀ b ∈ possible, b.wording.isTold = true) (left : x.IsBy possible [] v)
    (right : y.IsBy possible [] v) : x.toFieldError = y.toFieldError ↔ x.claim = y.claim := by
  obtain ⟨⟨p, place, stands⟩, breaks⟩ := left
  obtain ⟨⟨q, place', stands'⟩, breaks'⟩ := right
  rw [List.nil_append] at place place'
  subst place place'
  -- the same place holds the same value
  have sameValue : x.place = y.place → x.value = y.value := by
    intro same
    rw [same] at stands
    exact Option.some.inj (stands.symm.trans stands')
  simp only [toFieldError, claim, FieldError.mk.injEq, Prod.mk.injEq, Violation.message_eq]
  constructor
  · rintro ⟨path, message⟩
    have same := Pointer.eq_of_render stands stands' path
    rw [sameValue same] at message
    exact ⟨same, Wording.about_injective (told _ breaks) (told _ breaks') message⟩
  · rintro ⟨same, wording⟩
    rw [same, wording, sameValue same]
    exact ⟨rfl, rfl⟩

/-- Taking out repetitions by one description of the elements leaves the same elements as
by another one that tells apart the same. -/
theorem map_eraseDups_congr {α β γ δ : Type} [BEq β] [LawfulBEq β] [BEq γ] [LawfulBEq γ]
    {f : α → β} {g : α → γ} {left : β → δ} {right : γ → δ} {xs : List α}
    (apart : ∀ x ∈ xs, ∀ y ∈ xs, f x = f y ↔ g x = g y)
    (same : ∀ x ∈ xs, left (f x) = right (g x)) :
    (xs.map f).eraseDups.map left = (xs.map g).eraseDups.map right := by
  induction hn : xs.length using Nat.strongRecOn generalizing xs with
  | ind n ih =>
    cases xs with
    | nil => rfl
    | cons x rest =>
      obtain ⟨first, later⟩ := List.forall_mem_cons.1 same
      -- the first one takes the same elements out of the rest, however they are described
      have others : rest.filter (fun y => !(f y == f x)) = rest.filter fun y => !(g y == g x) := by
        refine List.filter_congr fun y mem => ?_
        have iff := apart y (List.mem_cons_of_mem _ mem) x List.mem_cons_self
        rw [Bool.eq_iff_iff]
        simpa using not_congr iff
      have kept : ∀ y ∈ rest.filter (fun y => !(f y == f x)), y ∈ rest :=
        fun y mem => List.mem_of_mem_filter mem
      have shorter : (rest.filter fun y => !(f y == f x)).length < n := by
        rw [← hn]
        exact Nat.lt_succ_of_le (List.length_filter_le _ _)
      have step := ih _ shorter
        (fun y hy z hz => apart y (List.mem_cons_of_mem _ (kept y hy)) z
          (List.mem_cons_of_mem _ (kept z hz)))
        (fun y hy => later y (kept y hy)) rfl
      rw [List.map_cons, List.map_cons, List.eraseDups_cons, List.eraseDups_cons, List.map_cons,
        List.map_cons, first, List.filter_map, List.filter_map]
      congr 1
      rw [show ((fun b => !b == f x) ∘ f) = fun y => !(f y == f x) from rfl, step, others]
      rfl

theorem nodup_eraseDups {α : Type} [BEq α] [LawfulBEq α] (xs : List α) : xs.eraseDups.Nodup := by
  induction hn : xs.length using Nat.strongRecOn generalizing xs with
  | ind n ih =>
    cases xs with
    | nil => exact .nil
    | cons x rest =>
      rw [List.eraseDups_cons, List.nodup_cons, List.mem_eraseDups]
      refine ⟨by simp, ih _ ?_ _ rfl⟩
      rw [← hn]
      exact Nat.lt_succ_of_le (List.length_filter_le _ _)

/-- Elements are chosen before or after repetitions are taken out. -/
theorem filter_eraseDups {α : Type} [BEq α] [LawfulBEq α] (p : α → Bool) (xs : List α) :
    xs.eraseDups.filter p = (xs.filter p).eraseDups := by
  induction hn : xs.length using Nat.strongRecOn generalizing xs with
  | ind n ih =>
    cases xs with
    | nil => rfl
    | cons x rest =>
      have shorter : (rest.filter fun y => !(y == x)).length < n := by
        rw [← hn]
        exact Nat.lt_succ_of_le (List.length_filter_le _ _)
      have step := ih _ shorter _ rfl
      rw [List.filter_filter] at step
      rw [List.eraseDups_cons]
      cases chosen : p x with
      | true =>
        rw [List.filter_cons_of_pos chosen, List.filter_cons_of_pos chosen, List.eraseDups_cons,
          step, List.filter_filter]
        simp only [Bool.and_comm]
      | false =>
        -- what is the same as the first one is not chosen either
        have others : ∀ y ∈ rest, (p y && !(y == x)) = p y := by
          intro y _
          by_cases same : y = x
          · rw [same, chosen, Bool.false_and]
          · simp [same]
        have none : ¬p x = true := by simp [chosen]
        rw [List.filter_cons_of_neg none, List.filter_cons_of_neg none, step,
          List.filter_congr others]

end LiteratureReview
