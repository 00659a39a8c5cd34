/-
  LiteratureReview.Proofs.Schema.TaggedUnions
  ───────────────────────────────────────────
  Dispatching on a tag keeps what a schema accepts.

  Of a union the branches fix the tag to different texts.  So a value is
  accepted by one of them at most, by the one that its tag names
  (`get?_of_accepts`), and "exactly one" is the same as: the tag names a
  branch, and that branch accepts the value (`one_verdict_iff`).  This is what
  the object says afterwards, with its type, its required keys, its schema of
  the tag and its conditionals taken together (`accepts_dispatched`).

  A branch has to say itself, or in a part of its `allOf`, that values are
  objects and have the tag; and the object around the union must not exclude
  objects, or say anything of the tag.
-/
import LiteratureReview.Proofs.Schema.Agreement
import LiteratureReview.Schema.TaggedUnions

namespace LiteratureReview.TaggedUnions

open Json JsonSchema Grammar

variable {c : Context} {v w s branch : Json} {branches parts : List Json} {members : Members}
variable {key tag value : String} {values : List String} {cases : List (String × Json)}

/-! ## §1. What a branch says. -/

/-- The schemas that have to hold besides a schema. -/
def partsOf (s : Json) : List Json :=
  match s.get? "allOf" with
  | some (.list parts) => parts
  | _ => []

/-- The schema, and those that have to hold besides. -/
def withParts (s : Json) : List Json := s :: partsOf s

/-- The schema says that values are objects. -/
def saysObject (s : Json) : Bool :=
  match s.get? "type" with
  | some (.text name) => name == "object"
  | some (.list names) => names.all (· == .text "object")
  | _ => false

/-- The schema requires a key. -/
def requires (key : String) (s : Json) : Bool :=
  match s.get? "required" with
  | some (.list keys) => keys.contains (.text key)
  | _ => false

/-- The schema says that values are objects with a key. -/
def isVariant (tag : String) (s : Json) : Bool :=
  (withParts s).any saysObject && (withParts s).any (requires tag)

/-- What is accepted satisfies each keyword. -/
theorem keywordHolds_of_accepts (yes : accepts c s v = true) (there : s.get? key = some w) :
    keywordHolds c key w v = true := by
  obtain ⟨members, rfl, found⟩ := get?_eq_some_iff.1 there
  rw [accepts, Bool.and_eq_true, keywordsHold_iff] at yes
  exact yes.1 _ (mem_of_lookup found)

theorem accepts_part (yes : accepts c s v = true) {t : Json} (mem : t ∈ withParts s) :
    accepts c t v = true := by
  rcases List.mem_cons.1 mem with rfl | part
  · exact yes
  · unfold partsOf at part
    split at part
    next parts there =>
      have all := keywordHolds_of_accepts yes there
      rw [keywordHolds, keyword, verdicts_list, List.all_map, List.all_eq_true] at all
      exact all t part
    next => cases part

theorem isOfType_object_iff : isOfType (.text "object") v = true ↔ IsObject v := by
  have known : isOfType (.text "object") v = ValueType.object.holds v := rfl
  rw [known]
  cases v <;> simp [ValueType.holds, IsObject]

theorem isObject_of_accepts (yes : accepts c s v = true) (said : saysObject s = true) :
    IsObject v := by
  unfold saysObject at said
  split at said
  next name there =>
    have type := keywordHolds_of_accepts yes there
    rw [beq_iff_eq.1 said] at type
    exact isOfType_object_iff.1 type
  next names there =>
    obtain ⟨name, mem, type⟩ := List.any_eq_true.1 (keywordHolds_of_accepts yes there)
    rw [beq_iff_eq.1 (List.all_eq_true.1 said name mem)] at type
    exact isOfType_object_iff.1 type
  next => cases said

theorem hasKeys_object_iff {keys : List Json} (object : IsObject v) :
    hasKeys (.list keys) v = true ↔ ∀ k ∈ keys, ∀ name, k = .text name → (v.get? name).isSome := by
  obtain ⟨members, rfl⟩ := object
  rw [hasKeys, List.all_eq_true]
  refine forall₂_congr fun k _ => ?_
  cases k <;> simp [asText?, get?]

theorem isSome_of_accepts (yes : accepts c s v = true) (object : IsObject v)
    (said : requires tag s = true) : (v.get? tag).isSome = true := by
  unfold requires at said
  split at said
  next keys there =>
    have required := keywordHolds_of_accepts yes there
    exact (hasKeys_object_iff object).1 required _ (List.contains_iff_mem.1 said) tag rfl
  next => cases said

theorem eq_of_constantText (yes : accepts c s v = true) (fixed : constantText s = some value) :
    v = .text value := by
  unfold constantText at fixed
  split at fixed
  next w there =>
    obtain ⟨⟩ | ⟨⟩ | ⟨⟩ | text := w <;> cases fixed
    exact same_text_iff.1 (keywordHolds_of_accepts yes there)
  next w _ there =>
    obtain ⟨⟩ | ⟨⟩ | ⟨⟩ | text := w <;> cases fixed
    have listed := keywordHolds_of_accepts yes there
    exact same_text_iff.1 (by simpa [keywordHolds, keyword, assertion, asList?] using listed)
  next => cases fixed

theorem eq_of_fixedHere (yes : accepts c s v = true) (fixed : (tag, value) ∈ fixedHere s)
    (found : v.get? tag = some w) : w = .text value := by
  unfold fixedHere at fixed
  split at fixed
  next properties there =>
    obtain ⟨m, mem, same⟩ := List.mem_filterMap.1 fixed
    obtain ⟨text, constant, same⟩ := Option.map_eq_some_iff.1 same
    cases same
    have table := keywordHolds_of_accepts yes there
    exact eq_of_constantText (membersHold_object_iff.1 table m mem w found) constant
  next => cases fixed

/-- What a branch fixes is fixed by itself or by a part of it. -/
theorem exists_fixedHere {m : String × String} (fixed : m ∈ fixedMembers branch) :
    ∃ t ∈ withParts branch, m ∈ fixedHere t := by
  rcases List.mem_append.1 fixed with here | below
  · exact ⟨branch, List.mem_cons_self, here⟩
  · split at below
    next parts there =>
      obtain ⟨t, mem, fixed⟩ := List.mem_flatMap.1 below
      have part : t ∈ partsOf branch := by
        rw [partsOf, there]
        exact mem
      exact ⟨t, List.mem_cons_of_mem _ part, fixed⟩
    next => cases below

/-- **A branch accepts only objects whose tag is the text that it fixes.** -/
theorem get?_of_accepts (yes : accepts c branch v = true) (variant : isVariant tag branch = true)
    (fixed : (fixedMembers branch).lookup tag = some value) : v.get? tag = some (.text value) := by
  obtain ⟨type, keys⟩ := Bool.and_eq_true_iff.1 variant
  obtain ⟨t, mem, said⟩ := List.any_eq_true.1 type
  have object := isObject_of_accepts (accepts_part yes mem) said
  obtain ⟨t, mem, said⟩ := List.any_eq_true.1 keys
  have there := isSome_of_accepts (accepts_part yes mem) object said
  obtain ⟨w, found⟩ := Option.isSome_iff_exists.1 there
  obtain ⟨t, mem, constant⟩ := exists_fixedHere (mem_of_lookup fixed)
  rw [found, eq_of_fixedHere (accepts_part yes mem) constant found]

/-! ## §2. Exactly one branch. -/

/-- Of elements with different values, those with one of the values are one at most. -/
theorem count_eq_one_iff {α β : Type} {f : α → Bool} {g : α → β} {xs : List α} {b : β}
    (distinct : (xs.map g).Nodup) (only : ∀ x ∈ xs, f x = true → g x = b) :
    (xs.map f).count true = 1 ↔ ∃ x ∈ xs, f x = true := by
  induction xs with
  | nil => simp
  | cons x rest ih =>
    rw [List.map_cons, List.nodup_cons] at distinct
    obtain ⟨first, later⟩ := List.forall_mem_cons.1 only
    rw [List.map_cons]
    cases yes : f x with
    | false =>
      rw [List.count_cons_of_ne (by decide), ih distinct.2 later]
      simp [yes]
    | true =>
      have none : true ∉ rest.map f := by
        intro mem
        obtain ⟨y, there, same⟩ := List.mem_map.1 mem
        exact distinct.1 (List.mem_map.2 ⟨y, there, (later y there same).trans (first yes).symm⟩)
      rw [List.count_cons_self, List.count_eq_zero.2 none]
      simp [yes]

/-- Where the texts of the tag differ, one branch accepts the value exactly when the tag names a
branch, and the branch that it names accepts the value. -/
theorem one_verdict_iff (distinct : (cases.map (·.1)).Nodup)
    (tagged : ∀ p ∈ cases, accepts c p.2 v = true → v.get? tag = some (.text p.1)) :
    (verdicts c (.list (cases.map (·.2))) v).count true = 1 ↔
      (∃ p ∈ cases, v.get? tag = some (.text p.1)) ∧
        ∀ p ∈ cases, v.get? tag = some (.text p.1) → accepts c p.2 v = true := by
  have texts : (cases.map fun p => some (Json.text p.1)).Nodup := by
    have injective : Function.Injective fun name => some (Json.text name) :=
      fun _ _ same => Json.text.inj (Option.some.inj same)
    have mapped := distinct.map injective
    rwa [List.map_map] at mapped
  rw [verdicts_list, List.map_map]
  refine (count_eq_one_iff (f := fun p => accepts c p.2 v) texts
    fun p mem yes => (tagged p mem yes).symm).trans ?_
  constructor
  · rintro ⟨p, mem, yes⟩
    have named := tagged p mem yes
    refine ⟨⟨p, mem, named⟩, fun q there same => ?_⟩
    -- no other branch has the text
    have one : p = q := List.inj_on_of_nodup_map texts mem there (named.symm.trans same)
    exact one ▸ yes
  · rintro ⟨⟨p, mem, named⟩, each⟩
    exact ⟨p, mem, each p mem named⟩

/-! ## §3. What takes the place of a union. -/

/-- The schema of the tag accepts the texts of the tag. -/
theorem accepts_tagSchema_iff :
    accepts c (tagSchema values) w = true ↔ ∃ value ∈ values, w = .text value := by
  have parts : accepts c (tagSchema values) w =
      ((values.map Json.text).any w.same && (isOfType (.text "string") w && true) && true) := rfl
  have type : ∀ value, isOfType (.text "string") (.text value) = true := fun _ => rfl
  rw [parts, Bool.and_true, Bool.and_true, Bool.and_eq_true, List.any_map, List.any_eq_true]
  constructor
  · rintro ⟨⟨value, mem, same⟩, -⟩
    exact ⟨value, mem, same_text_iff.1 same⟩
  · rintro ⟨value, mem, rfl⟩
    exact ⟨⟨value, mem, same_text_iff.2 rfl⟩, type value⟩

/-- The condition in front of a branch. -/
def tagTest (tag value : String) : Json :=
  .object
    [("properties", .object [(tag, .object [("const", .text value)])]),
     ("required", .list [.text tag])]

theorem onTag_eq (tag value : String) (branch : Json) :
    onTag tag value branch = .object [("if", tagTest tag value), ("then", branch)] := rfl

/-- The condition holds of objects with the text. -/
theorem accepts_tagTest_iff (object : IsObject v) :
    accepts c (tagTest tag value) v = true ↔ v.get? tag = some (.text value) := by
  have fixed : ∀ w, accepts c (.object [("const", .text value)]) w = w.same (.text value) := by
    intro w
    have parts : accepts c (.object [("const", .text value)]) w =
        (w.same (.text value) && true && true) := rfl
    rw [parts, Bool.and_true, Bool.and_true]
  have parts : accepts c (tagTest tag value) v =
      (membersHold c (.object [(tag, .object [("const", .text value)])]) v &&
        (hasKeys (.list [.text tag]) v && true) && true) := rfl
  rw [parts, Bool.and_true, Bool.and_true, Bool.and_eq_true, membersHold_object_iff,
    hasKeys_object_iff object, List.forall_mem_singleton, List.forall_mem_singleton]
  simp only [fixed, same_text_iff]
  cases found : v.get? tag <;> simp [found]

/-- The conditional of a branch says something of objects with the branch's text. -/
theorem accepts_onTag_iff (object : IsObject v) :
    accepts c (onTag tag value branch) v = true ↔
      (v.get? tag = some (.text value) → accepts c branch v = true) := by
  have parts : accepts c (onTag tag value branch) v =
      (true && chosen (some (accepts c (tagTest tag value) v)) (some (accepts c branch v)) none) :=
    rfl
  rw [parts, Bool.true_and, ← accepts_tagTest_iff (c := c) object]
  cases accepts c (tagTest tag value) v <;> simp [chosen]

/-! ## §4. One object. -/

/-- The branches of a union, its tag, and the text of the tag in each branch. -/
def unionOf (members : Members) : Option (List Json × String × List String) :=
  match members.lookup "oneOf" with
  | some (.list branches) => (commonTag branches).map fun found => (branches, found.1, found.2)
  | _ => none

/-- The object is no union with a tag. -/
def isNoUnion (members : Members) : Bool := (unionOf members).isNone

/-- The type of the object, if it has one, is that of objects, or one of several. -/
def admitsObjects (members : Members) : Bool :=
  match members.lookup "type" with
  | none => true
  | some (.text name) => name == "object"
  | some (.list names) => names.contains (.text "object")
  | some _ => false

/-- The object has no schema for a member with a key. -/
def isSilentOn (key : String) (members : Members) : Bool :=
  match members.lookup "properties" with
  | some table => (table.get? key).isNone
  | none => true

/-- If the object is a union with a tag, its branches demand the tag, and the object says nothing
of it. -/
def isTagged (members : Members) : Bool :=
  match unionOf members with
  | none => true
  | some (branches, tag, _) =>
    branches.all (isVariant tag) && admitsObjects members && isSilentOn tag members

/-- The object is a union that is dispatched on a tag, with a branch for each text. -/
structure IsUnion (members : Members) (tag : String) (cases : List (String × Json)) : Prop where
  held : members.lookup "oneOf" = some (.list (cases.map (·.2)))
  distinct : (cases.map (·.1)).Nodup
  fixed : ∀ p ∈ cases, (fixedMembers p.2).lookup tag = some p.1
  tagged : commonTag (cases.map (·.2)) = some (tag, cases.map (·.1))

/-- The texts of a tag are those that the branches fix it to, one by one. -/
theorem exists_cases {f : Json → Option String} (all : branches.mapM f = some values) :
    ∃ cases : List (String × Json), branches = cases.map (·.2) ∧ values = cases.map (·.1) ∧
      ∀ p ∈ cases, f p.2 = some p.1 := by
  induction branches generalizing values with
  | nil =>
    cases all
    exact ⟨[], rfl, rfl, nofun⟩
  | cons b rest ih =>
    rw [List.mapM_cons] at all
    obtain ⟨value, first, all⟩ := Option.bind_eq_some_iff.1 all
    obtain ⟨later, others, all⟩ := Option.bind_eq_some_iff.1 all
    cases all
    obtain ⟨cases, rfl, rfl, each⟩ := ih others
    exact ⟨(value, b) :: cases, rfl, rfl, List.forall_mem_cons.2 ⟨first, each⟩⟩

theorem tagValues_of_commonTag (found : commonTag branches = some (tag, values)) :
    tagValues tag branches = some values := by
  cases branches with
  | nil => cases found
  | cons first rest =>
    obtain ⟨m, -, there⟩ := List.exists_of_findSome?_eq_some found
    obtain ⟨texts, there, same⟩ := Option.map_eq_some_iff.1 there
    cases same
    exact there

theorem isUnion_of_unionOf (found : unionOf members = some (branches, tag, values)) :
    ∃ cases, branches = cases.map (·.2) ∧ values = cases.map (·.1) ∧ IsUnion members tag cases := by
  unfold unionOf at found
  split at found
  next items held =>
    obtain ⟨⟨t, texts⟩, common, same⟩ := Option.map_eq_some_iff.1 found
    cases same
    have fixed := tagValues_of_commonTag common
    obtain ⟨texts, all, fixed⟩ := Option.bind_eq_some_iff.1 fixed
    split at fixed
    next distinct =>
      cases fixed
      obtain ⟨cases, rfl, rfl, each⟩ := exists_cases all
      exact ⟨cases, rfl, rfl, held, distinct, each, common⟩
    next => cases fixed
  next => cases found

/-- The members of a union that is dispatched on its tag. -/
def dispatched (members : Members) (tag : String) (cases : List (String × Json)) : Members :=
  Members.without members "oneOf"
    |> insertMember "type" (.text "object")
    |> change "required" (.list []) (demandKey tag)
    |> change "properties" (.object []) (fun v => v.set tag (tagSchema (cases.map (·.1))))
    |> change "allOf" (.list []) (addAll (cases.map fun p => onTag tag p.1 p.2))

/-- An object is dispatched if it is a union with a tag, and else left alone. -/
theorem dispatch_cases (members : Members) :
    unionOf members = none ∧ dispatch members = members ∨ ∃ tag cases,
      unionOf members = some (cases.map (·.2), tag, cases.map (·.1)) ∧
        IsUnion members tag cases ∧ dispatch members = dispatched members tag cases := by
  cases found : unionOf members with
  | none =>
    refine .inl ⟨rfl, ?_⟩
    unfold unionOf at found
    unfold dispatch
    split
    next branches held =>
      simp only [held, Option.map_eq_none_iff] at found
      rw [found]
    next => rfl
  | some union =>
    obtain ⟨branches, tag, values⟩ := union
    obtain ⟨cases, rfl, rfl, union⟩ := isUnion_of_unionOf found
    refine .inr ⟨tag, cases, rfl, union, ?_⟩
    rw [dispatch, union.held]
    simp only [union.tagged]
    rw [dispatched, List.zipWith_map, List.zipWith_self]

/-! ## §5. Members of a dispatched union. -/

/-- The schemas that all have to hold, the conditionals among them. -/
def newParts (members : Members) (tag : String) (cases : List (String × Json)) : Json :=
  addAll (cases.map fun p => onTag tag p.1 p.2) ((members.lookup "allOf").getD (.list []))

/-- The schemas of members, that of the tag among them. -/
def newProperties (members : Members) (tag : String) (cases : List (String × Json)) : Json :=
  ((members.lookup "properties").getD (.object [])).set tag (tagSchema (cases.map (·.1)))

/-- The required keys, the tag among them. -/
def newRequired (members : Members) (tag : String) : Json :=
  demandKey tag ((members.lookup "required").getD (.list []))

theorem dispatched_eq (members : Members) (tag : String) (cases : List (String × Json)) :
    dispatched members tag cases =
      insertMember "allOf" (newParts members tag cases)
        (insertMember "properties" (newProperties members tag cases)
          (insertMember "required" (newRequired members tag)
            (insertMember "type" (.text "object") (members.without "oneOf")))) := by
  simp only [dispatched, change, lookup_insertMember, Members.lookup_without, String.reduceEq,
    if_false, newParts, newProperties, newRequired]

theorem lookup_dispatched (key : String) :
    (dispatched members tag cases).lookup key =
      if key = "allOf" then some (newParts members tag cases)
      else if key = "properties" then some (newProperties members tag cases)
      else if key = "required" then some (newRequired members tag)
      else if key = "type" then some (.text "object")
      else if key = "oneOf" then none else members.lookup key := by
  rw [dispatched_eq, lookup_insertMember, lookup_insertMember, lookup_insertMember,
    lookup_insertMember, Members.lookup_without]

theorem mem_dispatched {m : String × Json} (mem : m ∈ dispatched members tag cases) :
    m = ("allOf", newParts members tag cases) ∨
      m = ("properties", newProperties members tag cases) ∨
      m = ("required", newRequired members tag) ∨ m = ("type", .text "object") ∨ m ∈ members := by
  rw [dispatched_eq] at mem
  exact (mem_insertMember_iff mem).imp_right fun mem =>
    (mem_insertMember_iff mem).imp_right fun mem =>
      (mem_insertMember_iff mem).imp_right fun mem =>
        (mem_insertMember_iff mem).imp_right Members.mem_of_mem_without

/-- What stands under some keywords of a schema, or is taken to stand there. -/
structure Holds (members : Members) (keys parts : List Json) (table : Members) : Prop where
  required : (members.lookup "required").getD (.list []) = .list keys
  allOf : (members.lookup "allOf").getD (.list []) = .list parts
  properties : (members.lookup "properties").getD (.object []) = .object table
  texts : isTexts (.list keys) = true
  schemas : ∀ t ∈ parts, isSchema isTagged isNoUnion t = true
  entries : ∀ m ∈ table, isSchema isTagged isNoUnion m.2 = true

theorem exists_holds (schema : isSchema isTagged isNoUnion (.object members) = true) :
    ∃ keys parts table, Holds members keys parts table := by
  obtain ⟨-, fits⟩ := isSchema_object_iff.1 schema
  obtain ⟨keys, required, texts⟩ : ∃ keys, (members.lookup "required").getD (.list []) =
      .list keys ∧ isTexts (.list keys) = true := by
    cases found : members.lookup "required" with
    | none => exact ⟨[], rfl, rfl⟩
    | some s =>
      have texts : isTexts s = true := fits _ (mem_of_lookup found)
      cases s with
      | list keys => exact ⟨keys, rfl, texts⟩
      | _ => cases texts
  obtain ⟨parts, allOf, schemas⟩ : ∃ parts, (members.lookup "allOf").getD (.list []) =
      .list parts ∧ ∀ t ∈ parts, isSchema isTagged isNoUnion t = true := by
    cases found : members.lookup "allOf" with
    | none => exact ⟨[], rfl, nofun⟩
    | some s =>
      obtain ⟨parts, rfl, each⟩ := isSchemas_iff.1 (fits _ (mem_of_lookup found))
      exact ⟨parts, rfl, each⟩
  obtain ⟨table, properties, entries⟩ : ∃ table,
      (members.lookup "properties").getD (.object []) = .object table ∧
        ∀ m ∈ table, isSchema isTagged isNoUnion m.2 = true := by
    cases found : members.lookup "properties" with
    | none => exact ⟨[], rfl, nofun⟩
    | some s =>
      obtain ⟨table, rfl, each⟩ := isTable_iff.1 (fits _ (mem_of_lookup found))
      exact ⟨table, rfl, each⟩
  exact ⟨keys, parts, table, required, allOf, properties, texts, schemas, entries⟩

/-! ### Keys stay in order. -/

theorem isOrdered_tagSchema (values : List String) : (tagSchema values).IsOrdered := by
  have keys : (["enum", "type"] : List String).Pairwise (· < ·) := by decide
  have sorted : (Json.texts values).IsOrdered :=
    isOrdered_list_iff.2 fun t mem => by
      obtain ⟨value, -, rfl⟩ := List.mem_map.1 mem
      rfl
  exact isOrdered_object_iff.2 ⟨keys, List.forall_mem_cons.2 ⟨sorted,
    List.forall_mem_singleton.2 rfl⟩⟩

theorem isOrdered_onTag (ordered : branch.IsOrdered) : (onTag tag value branch).IsOrdered := by
  have keys : (["if", "then"] : List String).Pairwise (· < ·) := by decide
  have inner : (["properties", "required"] : List String).Pairwise (· < ·) := by decide
  have test : (tagTest tag value).IsOrdered := by
    refine isOrdered_object_iff.2 ⟨inner, ?_⟩
    simp [IsOrdered, every, everyMember, everyItem]
  exact isOrdered_object_iff.2 ⟨keys, List.forall_mem_cons.2 ⟨test,
    List.forall_mem_singleton.2 ordered⟩⟩

theorem isOrdered_demandKey (ordered : s.IsOrdered) : (demandKey tag s).IsOrdered := by
  cases s with
  | list keys =>
    rw [demandKey]
    split
    · exact ordered
    · exact isOrdered_list_iff.2 (List.forall_mem_append.2
        ⟨isOrdered_list_iff.1 ordered, List.forall_mem_singleton.2 rfl⟩)
  | _ => exact ordered

theorem isOrdered_addAll {more : List Json} (ordered : s.IsOrdered)
    (each : ∀ t ∈ more, t.IsOrdered) : (addAll more s).IsOrdered := by
  cases s with
  | list parts =>
    exact isOrdered_list_iff.2 (List.forall_mem_append.2 ⟨isOrdered_list_iff.1 ordered, each⟩)
  | _ => exact ordered

/-- Keys stay in order when a union is dispatched. -/
theorem IsUnion.isOrdered_dispatched (union : IsUnion members tag cases)
    (ordered : (Json.object members).IsOrdered) :
    (Json.object (dispatched members tag cases)).IsOrdered := by
  have held : ∀ key (empty : Json), empty.IsOrdered →
      ((members.lookup key).getD empty).IsOrdered := by
    intro key empty idle
    cases found : members.lookup key with
    | none => exact idle
    | some s => exact isOrdered_of_lookup ordered found
  have branches := isOrdered_list_iff.1 (isOrdered_of_lookup ordered union.held)
  rw [dispatched_eq]
  refine isOrdered_insertMember (isOrdered_insertMember (isOrdered_insertMember
    (isOrdered_insertMember (Members.isOrdered_without ordered) rfl)
    (isOrdered_demandKey (held "required" _ rfl)))
    ((held "properties" (.object []) (by decide)).set (isOrdered_tagSchema _)))
    (isOrdered_addAll (held "allOf" _ rfl) (List.forall_mem_map.2 fun p mem => ?_))
  exact isOrdered_onTag (branches _ (List.mem_map_of_mem mem))

/-! ## §6. The meaning of a dispatched union. -/

/-- A keyword that is left out says nothing, as does the empty one. -/
theorem keywordHolds_getD_iff {found : Option Json} {empty : Json}
    (idle : keywordHolds c key empty v = true) :
    keywordHolds c key (found.getD empty) v = true ↔
      ∀ s, found = some s → keywordHolds c key s v = true := by
  cases found <;> simp [idle]

/-- With one key more, objects have to have that key, too. -/
theorem keywordHolds_demandKey_iff {keys : List Json} (object : IsObject v) :
    keywordHolds c "required" (demandKey tag (.list keys)) v = true ↔
      keywordHolds c "required" (.list keys) v = true ∧ (v.get? tag).isSome = true := by
  show hasKeys (.list (if keys.contains (.text tag) then keys else keys ++ [.text tag])) v = true ↔
    hasKeys (.list keys) v = true ∧ _
  split
  next known =>
    refine (and_iff_left_of_imp fun all => ?_).symm
    exact (hasKeys_object_iff object).1 all _ (List.contains_iff_mem.1 known) tag rfl
  next =>
    rw [hasKeys_object_iff object, hasKeys_object_iff object, List.forall_mem_append,
      List.forall_mem_singleton]
    simp

/-- With a schema for one member more, the member has to satisfy it. -/
theorem keywordHolds_set_iff {table : Members} {t : Json} (absent : table.lookup tag = none) :
    keywordHolds c "properties" ((Json.object table).set tag t) v = true ↔
      keywordHolds c "properties" (.object table) v = true ∧
        ∀ w, v.get? tag = some w → accepts c t w = true := by
  show membersHold c (.object (insertMember tag t table)) v = true ↔
    membersHold c (.object table) v = true ∧ _
  simp only [membersHold_object_iff, mem_insertMember_of_absent absent]
  constructor
  · exact fun each => ⟨fun m mem => each m (.inr mem), each (tag, t) (.inl rfl)⟩
  · rintro ⟨old, new⟩ m (rfl | mem)
    · exact new
    · exact old m mem

/-- With some schemas more that all have to hold, these have to hold, too. -/
theorem keywordHolds_addAll_iff {more : List Json} :
    keywordHolds c "allOf" (addAll more (.list parts)) v = true ↔
      keywordHolds c "allOf" (.list parts) v = true ∧ ∀ t ∈ more, accepts c t v = true := by
  have all : ∀ items : List Json, keywordHolds c "allOf" (.list items) v = true ↔
      ∀ t ∈ items, accepts c t v = true := by
    intro items
    show (verdicts c (.list items) v).all id = true ↔ _
    rw [verdicts_list, List.all_map, List.all_eq_true]
    rfl
  rw [addAll, all, all, List.forall_mem_append]

/-- A type that admits objects says nothing against one. -/
theorem keywordHolds_type (admits : admitsObjects members = true) (object : IsObject v)
    (found : members.lookup "type" = some s) : keywordHolds c "type" s v = true := by
  have type := isOfType_object_iff.2 object
  rw [admitsObjects, found] at admits
  cases s with
  | text name =>
    rw [beq_iff_eq.1 admits]
    exact type
  | list names => exact List.any_eq_true.2 ⟨_, List.contains_iff_mem.1 admits, type⟩
  | _ => cases admits

/-- A union of one object that can be dispatched: its branches demand the tag, and the object
admits objects and is silent on the tag. -/
structure IsDispatchable (members : Members) (tag : String) (cases : List (String × Json)) : Prop
    extends IsUnion members tag cases where
  variants : ∀ p ∈ cases, isVariant tag p.2 = true
  admits : admitsObjects members = true
  silent : isSilentOn tag members = true

theorem IsUnion.isDispatchable (union : IsUnion members tag cases)
    (found : unionOf members = some (cases.map (·.2), tag, cases.map (·.1)))
    (tagged : isTagged members = true) : IsDispatchable members tag cases := by
  rw [isTagged, found] at tagged
  simp only [Bool.and_eq_true, List.all_map, List.all_eq_true] at tagged
  exact ⟨union, tagged.1.1, tagged.1.2, tagged.2⟩

namespace IsDispatchable

variable (union : IsDispatchable members tag cases)

include union

/-- A branch accepts only objects with its text. -/
theorem tagged_of_accepts : ∀ p ∈ cases, accepts c p.2 v = true → v.get? tag = some (.text p.1) :=
  fun p mem yes => get?_of_accepts yes (union.variants p mem) (union.fixed p mem)

/-- **Of an object, the union says that its tag names a branch, and that this branch accepts
it.** -/
theorem keywordHolds_oneOf_iff :
    keywordHolds c "oneOf" (.list (cases.map (·.2))) v = true ↔
      (∃ p ∈ cases, v.get? tag = some (.text p.1)) ∧
        ∀ p ∈ cases, v.get? tag = some (.text p.1) → accepts c p.2 v = true := by
  rw [← one_verdict_iff union.distinct union.tagged_of_accepts]
  exact beq_iff_eq

theorem lookup_tag {keys parts : List Json} {table : Members}
    (holds : Holds members keys parts table) : table.lookup tag = none := by
  have silent := union.silent
  have properties := holds.properties
  unfold isSilentOn at silent
  cases found : members.lookup "properties" with
  | none =>
    rw [found] at properties
    cases properties
    rfl
  | some s =>
    rw [found] at properties silent
    cases properties
    exact Option.isNone_iff_eq_none.1 silent

/-- The keywords of an object that dispatching touches. -/
def touched : List String := ["allOf", "oneOf", "properties", "required", "type"]

omit union in
theorem lookup_of_not_touched (other : key ∉ touched) :
    (dispatched members tag cases).lookup key = members.lookup key := by
  simp only [touched, List.mem_cons, List.not_mem_nil, or_false, not_or] at other
  rw [lookup_dispatched, if_neg other.1, if_neg other.2.2.1, if_neg other.2.2.2.1,
    if_neg other.2.2.2.2, if_neg other.2.1]

omit union in
/-- The tag is there and satisfies its schema when it names one of the cases. -/
theorem exists_named_iff :
    (∃ p ∈ cases, v.get? tag = some (.text p.1)) ↔
      (∀ w, v.get? tag = some w → accepts c (tagSchema (cases.map (·.1))) w = true) ∧
        (v.get? tag).isSome = true := by
  simp only [accepts_tagSchema_iff]
  cases v.get? tag <;> simp

/-- What is touched says the same as before. -/
theorem touched_iff {keys parts : List Json} {table : Members}
    (holds : Holds members keys parts table) :
    (∀ key ∈ touched, ∀ s, (dispatched members tag cases).lookup key = some s →
        keywordHolds c key s v = true) ↔
      ∀ key ∈ touched, ∀ s, members.lookup key = some s → keywordHolds c key s v = true := by
  have required : keywordHolds c "required" (.list keys) v = true ↔
      ∀ s, members.lookup "required" = some s → keywordHolds c "required" s v = true := by
    rw [← holds.required]
    exact keywordHolds_getD_iff (by cases v <;> rfl)
  have allOf : keywordHolds c "allOf" (.list parts) v = true ↔
      ∀ s, members.lookup "allOf" = some s → keywordHolds c "allOf" s v = true := by
    rw [← holds.allOf]
    exact keywordHolds_getD_iff rfl
  have properties : keywordHolds c "properties" (.object table) v = true ↔
      ∀ s, members.lookup "properties" = some s → keywordHolds c "properties" s v = true := by
    rw [← holds.properties]
    exact keywordHolds_getD_iff rfl
  have type : keywordHolds c "type" (.text "object") v = true ↔ IsObject v := isOfType_object_iff
  simp only [touched, List.forall_mem_cons, List.not_mem_nil, false_implies, implies_true, and_true,
    lookup_dispatched, String.reduceEq, if_true, if_false, Option.some.injEq, forall_eq',
    reduceCtorEq, true_and, union.held, ← required, ← allOf, ← properties, type,
    union.keywordHolds_oneOf_iff]
  rw [newParts, holds.allOf, newProperties, holds.properties, newRequired, holds.required,
    keywordHolds_addAll_iff, keywordHolds_set_iff (union.lookup_tag holds), List.forall_mem_map]
  by_cases object : IsObject v
  · have conditionals : (∀ p ∈ cases, accepts c (onTag tag p.1 p.2) v = true) ↔
        ∀ p ∈ cases, v.get? tag = some (.text p.1) → accepts c p.2 v = true :=
      forall₂_congr fun _ _ => accepts_onTag_iff object
    rw [keywordHolds_demandKey_iff object, conditionals, exists_named_iff (c := c)]
    constructor
    · rintro ⟨⟨all, each⟩, ⟨members, texts⟩, ⟨keys, some⟩, -⟩
      exact ⟨all, ⟨⟨texts, some⟩, each⟩, members, keys,
        fun s found => keywordHolds_type union.admits object found⟩
    · rintro ⟨all, ⟨⟨texts, some⟩, each⟩, members, keys, -⟩
      exact ⟨⟨all, each⟩, ⟨members, texts⟩, ⟨keys, some⟩, object⟩
  -- what is no object has no tag
  · constructor
    · rintro ⟨-, -, -, type⟩
      exact absurd type object
    · rintro ⟨-, ⟨⟨p, -, named⟩, -⟩, -⟩
      exact absurd (isObject_of_get? named) object

/-! ## §7. Schemas. -/

omit union in
/-- The conditional of a branch is a schema. -/
theorem isSchema_onTag (schema : isSchema isTagged isNoUnion branch = true) :
    isSchema isTagged isNoUnion (onTag tag value branch) = true := by
  rw [onTag_eq, isSchema_object_iff, List.forall_mem_cons, List.forall_mem_singleton]
  exact ⟨rfl, rfl, schema⟩

omit union in
/-- The schema of the tag is a schema. -/
theorem isSchema_tagSchema (values : List String) :
    isSchema isTagged isNoUnion (tagSchema values) = true := by
  have plain : everyObject isNoUnion (Json.texts values) = true :=
    everyObject_list_iff.2 fun t mem => by
      obtain ⟨value, -, rfl⟩ := List.mem_map.1 mem
      rfl
  exact isSchema_object_iff.2 ⟨rfl, List.forall_mem_cons.2 ⟨plain,
    List.forall_mem_singleton.2 rfl⟩⟩

omit union in
/-- Required keys with one more are a list of texts. -/
theorem isTexts_demandKey {keys : List Json} (texts : isTexts (.list keys) = true) :
    isTexts (demandKey tag (.list keys)) = true := by
  show (if keys.contains (.text tag) then keys else keys ++ [.text tag]).all
    (fun t => t.asText?.isSome) = true
  split
  · exact texts
  · rw [List.all_append, Bool.and_eq_true]
    exact ⟨texts, rfl⟩

/-- A dispatched union is a schema. -/
theorem isSchema_dispatched (schema : isSchema isTagged isNoUnion (.object members) = true) :
    isSchema isTagged isNoUnion (.object (dispatched members tag cases)) = true := by
  obtain ⟨keys, parts, table, holds⟩ := exists_holds schema
  obtain ⟨-, fits⟩ := isSchema_object_iff.1 schema
  have branches : ∀ p ∈ cases, isSchema isTagged isNoUnion p.2 = true := by
    intro p mem
    obtain ⟨items, same, each⟩ := isSchemas_iff.1 (fits _ (mem_of_lookup union.held))
    cases same
    exact each _ (List.mem_map_of_mem mem)
  refine isSchema_object_iff.2 ⟨?_, fun m mem => ?_⟩
  · rw [isTagged, unionOf, lookup_dispatched]
    rfl
  · rcases mem_dispatched mem with rfl | rfl | rfl | rfl | old
    · rw [newParts, holds.allOf]
      refine isSchemas_iff.2 ⟨_, rfl, List.forall_mem_append.2 ⟨holds.schemas, ?_⟩⟩
      exact List.forall_mem_map.2 fun p mem => isSchema_onTag (branches p mem)
    · rw [newProperties, holds.properties]
      refine isTable_iff.2 ⟨_, rfl, fun m mem => ?_⟩
      rcases mem_insertMember_iff mem with rfl | old
      · exact isSchema_tagSchema _
      · exact holds.entries m old
    · rw [newRequired, holds.required]
      exact isTexts_demandKey holds.texts
    · rfl
    · exact fits m old

/-- **Dispatching a union on its tag keeps its meaning.** -/
theorem accepts_dispatched (ordered : (Json.object members).IsOrdered)
    (schema : isSchema isTagged isNoUnion (.object members) = true) :
    accepts c (.object (dispatched members tag cases)) v = accepts c (.object members) v := by
  obtain ⟨keys, parts, table, holds⟩ := exists_holds schema
  have ordered' := union.isOrdered_dispatched ordered
  have condition : conditionHolds c (dispatched members tag cases) v =
      conditionHolds c members v := by
    rw [conditionHolds, conditionHolds, lookup_of_not_touched (by decide),
      lookup_of_not_touched (by decide), lookup_of_not_touched (by decide)]
  rw [Bool.eq_iff_iff, accepts_object_iff ordered'.isProper,
    accepts_object_iff ordered.isProper, condition]
  refine and_congr_left fun _ => ⟨fun each key s found => ?_, fun each key s found => ?_⟩
  · by_cases mem : key ∈ touched
    · exact (union.touched_iff holds).1 (fun k _ s => each k s) key mem s found
    · exact each key s ((lookup_of_not_touched mem).trans found)
  · by_cases mem : key ∈ touched
    · exact (union.touched_iff holds).2 (fun k _ s => each k s) key mem s found
    · exact each key s ((lookup_of_not_touched mem).symm.trans found)

end IsDispatchable

theorem isSound_dispatch : IsSound isTagged isNoUnion dispatch where
  meaning c v members ordered schema := by
    rcases dispatch_cases members with ⟨-, same⟩ | ⟨tag, cases, found, union, dispatched⟩
    · rw [same]
    · rw [dispatched]
      exact (union.isDispatchable found (isSchema_object_iff.1 schema).1).accepts_dispatched
        ordered schema
  schema members _ schema := by
    rcases dispatch_cases members with ⟨-, same⟩ | ⟨tag, cases, found, union, dispatched⟩
    · rw [same]
      exact schema
    · rw [dispatched]
      exact (union.isDispatchable found (isSchema_object_iff.1 schema).1).isSchema_dispatched
        schema
  ordered members ordered := by
    rcases dispatch_cases members with ⟨-, same⟩ | ⟨tag, cases, -, union, dispatched⟩
    · rwa [same]
    · rw [dispatched]
      exact union.isOrdered_dispatched ordered
  definitions members := by
    rcases dispatch_cases members with ⟨-, same⟩ | ⟨tag, cases, -, -, dispatched⟩
    · rw [same]
    · rw [dispatched, lookup_dispatched]
      rfl
  table table noLists := by
    rcases dispatch_cases table with ⟨-, same⟩ | ⟨tag, cases, -, union, -⟩
    · exact same
    · cases noLists _ (mem_of_lookup union.held)
  compared members plain := by
    rcases dispatch_cases members with ⟨-, same⟩ | ⟨tag, cases, found, -, -⟩
    · exact same
    · rw [isNoUnion, found] at plain
      cases plain

/-- A schema whose unions can be dispatched, with no union among the values to compare with. -/
def IsDispatchableSchema (schema : Json) : Prop := isSchema isTagged isNoUnion schema = true

instance (schema : Json) : Decidable (IsDispatchableSchema schema) :=
  inferInstanceAs (Decidable (_ = true))

/-- **Dispatching unions on their tags keeps what a schema means**: the same values
are accepted and refused, in every dialect and after any number of references. -/
theorem meansSame_dispatched (schema : Json) (ordered : schema.IsOrdered)
    (tagged : IsDispatchableSchema schema) : MeansSame (resolve schema) schema :=
  .of_isSound isSound_dispatch _ ordered tagged

/-- Trees, whose leaves and forks are told apart by their kind. -/
def trees : Json :=
  .object
    [("$defs", .object
      [("tree", .object
        [("oneOf", .list
          [.object
            [("properties", .object [("kind", .object [("const", .text "leaf")])]),
             ("required", texts ["kind"]),
             ("type", .text "object")],
           .object
            [("properties", .object
              [("kind", .object [("enum", texts ["fork"])]),
               ("left", .object [("$ref", .text "#/$defs/tree")]),
               ("right", .object [("$ref", .text "#/$defs/tree")])]),
             ("required", texts ["kind", "left"]),
             ("type", .text "object")]])])]),
     ("$ref", .text "#/$defs/tree")]

/-- Trees are dispatched on their kind: a fork with a leaf is one, and a fork with a fork that has
no subtree is none. -/
theorem meansSame_dispatched_trees :
    resolve trees ≠ trees ∧ MeansSame (resolve trees) trees ∧
      Accepts dialect (resolve trees)
        (.object [("kind", .text "fork"), ("left", .object [("kind", .text "leaf")])]) ∧
      Refuses dialect (resolve trees)
        (.object [("kind", .text "fork"), ("left", .object [("kind", .text "fork")])]) := by
  have same := meansSame_dispatched trees (by decide +kernel) (by decide +kernel)
  exact ⟨by decide +kernel, same, (same.accepts _ _).2 ⟨2, fun _ => by with_unfolding_all rfl⟩,
    (same.refuses _ _).2 ⟨2, fun _ => by with_unfolding_all rfl⟩⟩

end LiteratureReview.TaggedUnions
