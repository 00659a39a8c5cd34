/-
  LiteratureReview.Proofs.Schema.Outline
  ──────────────────────────────────────
  Values that a schema cannot tell apart.

  The outline of a violation is its place and what is broken there, the value
  itself left out.  Two values are alike to a schema when checking them gives
  the same outlines in the same order, wherever they stand (`Alike`).  There
  is one lemma for each way to put schemas together, and one for each form
  of schema that grammars are made of; what a schema of scalars sees of a
  value is no more than its shape (`alike_of_sameShape`).
-/
import LiteratureReview.Proofs.Schema.Forms

namespace LiteratureReview

open Json Grammar

/-- Where something is broken, and what it is. -/
def Violation.outline (x : Violation) : Pointer × Breach := (x.place, x.breach)

namespace Schema

variable {resolve : Resolver} {s : Schema} {v w : Json}

/-- Checking the two values gives the same outlines, at any place. -/
def Alike (resolve : Resolver) (s : Schema) (v w : Json) : Prop :=
  ∀ p, (violations resolve s p v).map Violation.outline =
    (violations resolve s p w).map Violation.outline

theorem Alike.refl (s : Schema) (v : Json) : Alike resolve s v v := fun _ => rfl

/-- What is alike to a schema satisfies it or not together. -/
theorem Alike.isEmpty (h : Alike resolve s v w) (p : Pointer) :
    (violations resolve s p v).isEmpty = (violations resolve s p w).isEmpty := by
  rw [← List.isEmpty_map (f := Violation.outline), h p, List.isEmpty_map]

/-! ## §1. Schemas of one value. -/

theorem map_outline_demand {holds : Bool} {p : Pointer} {b : Breach} :
    (demand holds p v b).map Violation.outline = if holds then [] else [(p, b)] := by
  cases holds <;> rfl

/-- A single demand sees whether it is met. -/
theorem map_outline_demand_congr {holds holds' : Bool} (same : holds = holds') (p : Pointer)
    (b : Breach) : (demand holds p v b).map Violation.outline =
      (demand holds' p w b).map Violation.outline := by
  rw [map_outline_demand, map_outline_demand, same]

/-- The values differ inside lists and objects at most. -/
inductive SameShape : Json → Json → Prop where
  | null : SameShape .null .null
  | bool (b : Bool) : SameShape (.bool b) (.bool b)
  | number (n : Number) : SameShape (.number n) (.number n)
  | text (s : String) : SameShape (.text s) (.text s)
  | list {items items' : List Json} (length : items.length = items'.length) :
      SameShape (.list items) (.list items')
  | object {members members' : List (String × Json)} :
      SameShape (.object members) (.object members')

/-- The value has nothing inside. -/
def isScalar : Json → Bool
  | .null | .bool _ | .number _ | .text _ => true
  | .list _ | .object _ => false

mutual

/-- The schema looks at nothing inside a value, and asks for no definition. -/
def isShallow : Schema → Bool
  | .always | .never | .type _ | .limit _ | .extent _ | .pattern _ => true
  | .constant value => isScalar value
  | .enumeration values => values.all isScalar
  | .all parts => areShallow parts
  | .any branches => areShallow branches
  | .one branches => areShallow branches
  | .negate part => isShallow part
  | .conditional test consequence alternative =>
    isShallow test && isShallow consequence && isShallow alternative
  | .ref _ | .required _ | .properties _ | .elements _ => false

/-- All of the schemas are shallow. -/
def areShallow : List Schema → Bool
  | [] => true
  | s :: rest => isShallow s && areShallow rest

end

/-- Only the shape decides whether a value is a given scalar. -/
theorem SameShape.same_eq (h : SameShape v w) {scalar : Json} (plain : isScalar scalar = true) :
    v.same scalar = w.same scalar := by
  cases h with
  | list length => cases scalar <;> first | rfl | cases plain
  | object => cases scalar <;> first | rfl | cases plain
  | _ => rfl

theorem SameShape.any_same_eq (h : SameShape v w) {values : List Json}
    (plain : values.all isScalar = true) : values.any v.same = values.any w.same := by
  induction values with
  | nil => rfl
  | cons value rest ih =>
    rw [List.all_cons, Bool.and_eq_true] at plain
    rw [List.any_cons, List.any_cons, h.same_eq plain.1, ih plain.2]

theorem SameShape.type_holds_eq (h : SameShape v w) (t : ValueType) : t.holds v = t.holds w := by
  cases h with
  | list length => cases t <;> rfl
  | object => cases t <;> rfl
  | _ => rfl

theorem SameShape.limit_holds_eq (h : SameShape v w) (l : Limit) : l.holds v = l.holds w := by
  cases h with
  | list length => cases l <;> rfl
  | object => cases l <;> rfl
  | _ => rfl

theorem SameShape.extent_holds_eq (h : SameShape v w) (e : Extent) : e.holds v = e.holds w := by
  cases h with
  | list length => cases e <;> simp [Extent.holds, length]
  | object => cases e <;> rfl
  | _ => rfl

theorem SameShape.pattern_holds_eq (h : SameShape v w) (p : Pattern) : p.holds v = p.holds w := by
  cases h <;> rfl

mutual

/-- **To a shallow schema values of the same shape are alike.** -/
theorem alike_of_sameShape (h : SameShape v w) :
    (s : Schema) → isShallow s = true → Alike resolve s v w
  | .always, _ => fun _ => rfl
  | .never, _ => fun _ => rfl
  | .type names, _ => fun p => by
    have same : (names.any fun t => t.holds v) = names.any fun t => t.holds w :=
      congrArg names.any (funext h.type_holds_eq)
    rw [violations, violations]
    exact map_outline_demand_congr same p _
  | .limit bound, _ => fun p => by
    rw [violations, violations]
    exact map_outline_demand_congr (h.limit_holds_eq bound) p _
  | .extent bound, _ => fun p => by
    rw [violations, violations]
    exact map_outline_demand_congr (h.extent_holds_eq bound) p _
  | .pattern letters, _ => fun p => by
    rw [violations, violations]
    exact map_outline_demand_congr (h.pattern_holds_eq letters) p _
  | .constant value, plain => fun p => by
    rw [violations, violations]
    exact map_outline_demand_congr (h.same_eq plain) p _
  | .enumeration values, plain => fun p => by
    rw [violations, violations]
    exact map_outline_demand_congr (h.any_same_eq plain) p _
  | .all parts, plain => fun p => by
    rw [violations, violations]
    exact violationsAll_of_sameShape h parts plain p
  | .any branches, plain => fun p => by
    rw [violations, violations, countHolding_of_sameShape h branches plain p]
    exact map_outline_demand_congr rfl p _
  | .one branches, plain => fun p => by
    rw [violations, violations, countHolding_of_sameShape h branches plain p]
    split <;> rfl
  | .negate part, plain => fun p => by
    rw [violations, violations, (alike_of_sameShape h part plain).isEmpty p]
    exact map_outline_demand_congr rfl p _
  | .conditional test consequence alternative, plain => fun p => by
    rw [isShallow, Bool.and_eq_true, Bool.and_eq_true] at plain
    rw [violations, violations, (alike_of_sameShape h test plain.1.1).isEmpty p]
    split
    · exact alike_of_sameShape h consequence plain.1.2 p
    · exact alike_of_sameShape h alternative plain.2 p
  -- the others look inside the value, or ask for a definition
  | .ref _, plain => nomatch plain
  | .required _, plain => nomatch plain
  | .properties _, plain => nomatch plain
  | .elements _, plain => nomatch plain

theorem violationsAll_of_sameShape (h : SameShape v w) :
    (parts : List Schema) → areShallow parts = true → ∀ p,
      (violationsAll resolve parts p v).map Violation.outline =
        (violationsAll resolve parts p w).map Violation.outline
  | [], _, _ => rfl
  | s :: rest, plain, p => by
    rw [areShallow, Bool.and_eq_true] at plain
    rw [violationsAll, violationsAll, List.map_append, List.map_append,
      alike_of_sameShape h s plain.1 p, violationsAll_of_sameShape h rest plain.2 p]

theorem countHolding_of_sameShape (h : SameShape v w) :
    (branches : List Schema) → areShallow branches = true → ∀ p,
      countHolding resolve branches p v = countHolding resolve branches p w
  | [], _, _ => rfl
  | s :: rest, plain, p => by
    rw [areShallow, Bool.and_eq_true] at plain
    rw [countHolding, countHolding, (alike_of_sameShape h s plain.1).isEmpty p,
      countHolding_of_sameShape h rest plain.2 p]

end

/-- All numbers are alike where any number will do. -/
theorem alike_numeric (n m : Number) : Alike resolve numeric (.number n) (.number m) :=
  fun _ => rfl

/-! ## §2. Putting schemas together. -/

theorem alike_all {parts : List Schema} (h : parts.Forall fun s => Alike resolve s v w) :
    Alike resolve (.all parts) v w := by
  intro p
  rw [violations, violations]
  induction parts with
  | nil => rfl
  | cons s rest ih =>
    obtain ⟨first, others⟩ := (List.forall_cons _ _ _).1 h
    rw [violationsAll, violationsAll, List.map_append, List.map_append, first p, ih others]

/-- Of a conditional only the branch that applies has to agree. -/
theorem alike_conditional {test consequence alternative : Schema}
    (tested : Alike resolve test v w)
    (holds : ∀ p, violations resolve test p v = [] → Alike resolve consequence v w)
    (fails : Alike resolve alternative v w) :
    Alike resolve (.conditional test consequence alternative) v w := by
  intro p
  rw [violations, violations, ← tested.isEmpty p]
  split
  next passed => exact holds p (List.isEmpty_iff.1 passed) p
  next => exact fails p

/-- Lists are alike when their elements are, one by one. -/
theorem alike_elements {items items' : List Json}
    (h : List.Forall₂ (Alike resolve s) items items') :
    Alike resolve (.elements s) (.list items) (.list items') := by
  intro p
  -- the rest of a list is counted from a later index, so the index is any
  have step : ∀ i, ((items.mapIdx fun j v => (p ++ [Step.element (i + j)], v)).flatMap
        fun e => violations resolve s e.1 e.2).map Violation.outline =
      ((items'.mapIdx fun j v => (p ++ [Step.element (i + j)], v)).flatMap
        fun e => violations resolve s e.1 e.2).map Violation.outline := by
    induction h with
    | nil => intro i; rfl
    | @cons v w rest rest' first later ih =>
      intro i
      have shift : ∀ xs : List Json,
          (xs.mapIdx fun j v => (p ++ [Step.element (i + (j + 1))], v)) =
            xs.mapIdx fun j v => (p ++ [Step.element (i + 1 + j)], v) :=
        fun xs => by simp only [Nat.add_assoc, Nat.add_comm 1]
      rw [List.mapIdx_cons, List.mapIdx_cons, List.flatMap_cons, List.flatMap_cons,
        List.map_append, List.map_append, shift, shift, ih (i + 1), first]
  have start := step 0
  simp only [Nat.zero_add] at start
  rw [violations, violations]
  exact start

theorem alike_elements_of_ne (noList : ∀ items, v ≠ .list items)
    (noList' : ∀ items, w ≠ .list items) : Alike resolve (.elements s) v w := by
  have none : ∀ p u, (∀ items, u ≠ Json.list items) → elementsOf p u = [] := by
    intro p u other
    cases u with
    | list items => exact absurd rfl (other items)
    | _ => rfl
  intro p
  rw [violations, violations, none p v noList, none p w noList']

/-- What stands under a key is alike in both values; what stands under it in one of them
only breaks nothing. -/
def AlikeUnder (resolve : Resolver) (s : Schema) : Option Json → Option Json → Prop
  | some v, some w => Alike resolve s v w
  | some v, none => ∀ p, violations resolve s p v = []
  | none, some w => ∀ p, violations resolve s p w = []
  | none, none => True

theorem alike_properties {schemas : List (String × Schema)}
    (h : ∀ m ∈ schemas, AlikeUnder resolve m.2 (v.get? m.1) (w.get? m.1)) :
    Alike resolve (.properties schemas) v w := by
  intro p
  rw [violations, violations]
  induction schemas with
  | nil => rfl
  | cons m rest ih =>
    obtain ⟨key, s⟩ := m
    obtain ⟨first, others⟩ := List.forall_mem_cons.1 h
    rw [violationsOfMembers, violationsOfMembers, List.map_append, List.map_append, ih others]
    congr 1
    replace first : AlikeUnder resolve s (v.get? key) (w.get? key) := first
    -- a member of one side alone breaks nothing, as its absence does
    cases left : v.get? key <;> cases right : w.get? key <;> rw [left, right] at first
    case none.some b => exact congrArg (List.map Violation.outline) (first _).symm
    case some.none a => exact congrArg (List.map Violation.outline) (first _)
    case some.some a b => exact first _

theorem alike_required {keys : List String} {members members' : List (String × Json)}
    (h : ∀ k ∈ keys, (members.lookup k).isNone = (members'.lookup k).isNone) :
    Alike resolve (.required keys) (.object members) (.object members') := by
  intro p
  rw [violations, violations, List.map_map, List.map_map]
  have same : missingKeys keys (.object members) = missingKeys keys (.object members') :=
    List.filter_congr h
  rw [same]
  rfl

/-- Only objects have to have keys. -/
theorem alike_required_of_ne {keys : List String} (noObject : ¬IsObject v)
    (noObject' : ¬IsObject w) : Alike resolve (.required keys) v w := by
  have none : ∀ u, ¬IsObject u → missingKeys keys u = [] := by
    intro u other
    cases u with
    | object members => exact absurd ⟨members, rfl⟩ other
    | _ => rfl
  intro p
  rw [violations, violations, none v noObject, none w noObject']
  rfl

/-! ## §3. Forms. -/

theorem SameShape.isObject_iff (h : SameShape v w) : IsObject v ↔ IsObject w := by
  cases h <;> simp [IsObject]

theorem get?_of_not_isObject (other : ¬IsObject v) (key : String) : v.get? key = none := by
  cases v with
  | object members => exact absurd ⟨members, rfl⟩ other
  | _ => rfl

/-- Elements that are alike make lists that are. -/
theorem alike_elements_of_sameShape (shape : SameShape v w)
    (each : ∀ items items', v = .list items → w = .list items' →
      List.Forall₂ (Alike resolve s) items items') : Alike resolve (.elements s) v w := by
  cases shape with
  | list length => exact alike_elements (each _ _ rfl rfl)
  | _ => exact alike_elements_of_ne nofun nofun

section Lists

variable (shape : SameShape v w)
  (each : ∀ items items', v = .list items → w = .list items' →
    List.Forall₂ (Alike resolve s) items items')

include shape each

theorem alike_listOf (least : Nat) : Alike resolve (listOf least s) v w :=
  alike_all ⟨alike_elements_of_sameShape shape each, alike_of_sameShape shape _ rfl,
    alike_of_sameShape shape _ rfl⟩

theorem alike_listOrNull (least : Nat) : Alike resolve (listOrNull least s) v w :=
  alike_all ⟨alike_elements_of_sameShape shape each, alike_of_sameShape shape _ rfl,
    alike_of_sameShape shape _ rfl⟩

theorem alike_anyListOrNull : Alike resolve (anyListOrNull s) v w :=
  alike_all ⟨alike_elements_of_sameShape shape each, alike_of_sameShape shape _ rfl⟩

end Lists

theorem alike_reference {name : String} (h : Alike resolve (.ref name) v w) :
    Alike resolve (reference name) v w :=
  alike_all h

theorem alike_referenceOrNull {name : String} (shape : SameShape v w)
    (h : Alike resolve (.ref name) v w) : Alike resolve (referenceOrNull name) v w := by
  have tested : Alike resolve (.all [.negate (.all [.type [.null]])]) v w :=
    alike_of_sameShape shape _ rfl
  have content : Alike resolve (.all [.ref name]) v w := alike_reference h
  have nothing : Alike resolve .always v w := fun _ => rfl
  have choice := alike_conditional tested (fun _ _ => content) nothing
  exact alike_all choice

/-- Records are alike when what stands under each declared key is, and the same keys that
are needed are there. -/
theorem alike_record {schemas : List (String × Schema)} {keys : List String}
    (shape : SameShape v w)
    (members : ∀ m ∈ schemas, AlikeUnder resolve m.2 (v.get? m.1) (w.get? m.1))
    (needed : ∀ k ∈ keys, (v.get? k).isNone = (w.get? k).isNone) :
    Alike resolve (record schemas keys) v w := by
  have keysAlike : Alike resolve (.required keys) v w := by
    by_cases object : IsObject v
    · obtain ⟨xs, rfl⟩ := object
      obtain ⟨ys, rfl⟩ := shape.isObject_iff.1 ⟨xs, rfl⟩
      exact alike_required needed
    · exact alike_required_of_ne object (mt shape.isObject_iff.2 object)
  exact alike_all ⟨alike_properties members, keysAlike, alike_of_sameShape shape _ rfl⟩

/-- What is no object has no members that could differ. -/
theorem alike_record_of_not_isObject {schemas : List (String × Schema)} {keys : List String}
    (shape : SameShape v w) (other : ¬IsObject v) : Alike resolve (record schemas keys) v w := by
  have absent := get?_of_not_isObject other
  have absent' := get?_of_not_isObject (mt shape.isObject_iff.2 other)
  refine alike_record shape (fun m _ => ?_) fun k _ => ?_
  · rw [absent, absent']
    trivial
  · rw [absent, absent']

/-- What stands under a key has the same shape in both values, or is missing in both. -/
inductive SameUnder (key : String) (v w : Json) : Prop where
  | there {a b : Json} (left : v.get? key = some a) (right : w.get? key = some b)
      (shape : SameShape a b)
  | missing (left : v.get? key = none) (right : w.get? key = none)

section Tags

variable {tag : String} (shape : SameShape v w) (same : SameUnder tag v w)

include shape same

theorem alike_required_tag : Alike resolve (.required [tag]) v w := by
  by_cases object : IsObject v
  · obtain ⟨xs, rfl⟩ := object
    obtain ⟨ys, rfl⟩ := shape.isObject_iff.1 ⟨xs, rfl⟩
    refine alike_required fun k mem => ?_
    rw [List.mem_singleton] at mem
    subst mem
    show ((Json.object xs).get? k).isNone = ((Json.object ys).get? k).isNone
    rcases same with ⟨left, right, -⟩ | ⟨left, right⟩
    · rw [left, right]
      rfl
    · rw [left, right]
  · exact alike_required_of_ne object (mt shape.isObject_iff.2 object)

omit shape in
theorem alike_properties_tag (plain : isShallow s = true) :
    Alike resolve (.properties [(tag, s)]) v w := by
  refine alike_properties fun m mem => ?_
  rw [List.mem_singleton] at mem
  subst mem
  show AlikeUnder resolve s (v.get? tag) (w.get? tag)
  rcases same with ⟨left, right, under⟩ | ⟨left, right⟩ <;> rw [left, right]
  · exact alike_of_sameShape under s plain
  · trivial

theorem alike_tagIs (variant : String) : Alike resolve (tagIs tag variant) v w :=
  alike_all ⟨alike_properties_tag same rfl, alike_required_tag shape same⟩

end Tags

/-- An object whose tag passes the test for a name has that name. -/
theorem get?_of_tagIs {tag variant : String} {p : Pointer}
    (passed : violations resolve (tagIs tag variant) p v = []) (object : IsObject v) :
    v.get? tag = some (.text variant) := by
  obtain ⟨members, rfl⟩ := object
  simp only [tagIs, violations, violationsAll, violationsOfMembers, List.append_nil,
    List.append_eq_nil_iff, List.map_eq_nil_iff] at passed
  obtain ⟨constant, needed⟩ := passed
  have there : ((Json.object members).get? tag).isSome = true := by
    simpa [missingKeys, get?] using needed
  obtain ⟨u, found⟩ := Option.isSome_iff_exists.1 there
  rw [found] at constant ⊢
  simp only [demand] at constant
  split at constant
  next equal => rw [same_text_iff.1 equal]
  next => cases constant

/-- **Tagged unions see the tag, and what it selects.** -/
theorem alike_taggedUnion {tag : String} {variants : List (String × String)}
    (shape : SameShape v w) (same : SameUnder tag v w)
    (cases : variants.Forall fun c => (IsObject v → v.get? tag = some (.text c.1)) →
      Alike resolve (.ref c.2) v w) : Alike resolve (taggedUnion tag variants) v w := by
  have tags : Alike resolve (.required [tag]) v w := alike_required_tag shape same
  have objects : Alike resolve (.type [.object]) v w := alike_of_sameShape shape _ rfl
  have each : ∀ c ∈ variants, Alike resolve (caseOf tag c.1 c.2) v w := by
    intro c mem
    -- a case is looked at only where the tag is its own
    refine alike_all <| alike_conditional (alike_tagIs shape same c.1) (fun p passed => ?_)
      fun _ => rfl
    have selected := List.forall_iff_forall_mem.1 cases c mem (get?_of_tagIs passed)
    exact alike_all ⟨selected, alike_properties_tag same rfl, tags, objects⟩
  have named : isShallow (oneOfTexts (variants.map (·.1))) = true := by
    simp [oneOfTexts, isShallow, areShallow, isScalar]
  refine alike_all ⟨alike_all ?_, alike_properties_tag same named, tags, objects⟩
  rw [List.forall_map_iff]
  exact List.forall_iff_forall_mem.2 each

end Schema

end LiteratureReview
