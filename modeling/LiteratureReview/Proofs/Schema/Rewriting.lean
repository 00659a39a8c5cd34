/-
  LiteratureReview.Proofs.Schema.Rewriting
  ────────────────────────────────────────
  Rewriting the objects of a schema keeps what it means, if each step does.

  `rewriteObjects` goes through all objects, whether they are schemas or
  tables of schemas, values to compare with or annotations.  In a schema
  (`isSchema`) it is known which object is which.  A step that is sound
  (`IsSound`) keeps the meaning of a schema whose parts are schemas, and
  changes neither tables nor what values are compared with; then the whole
  rewriting keeps the meaning, by induction on its depth
  (`accepts_rewriteObjects`), and since the definitions are rewritten in the
  same way, so do references (`equivalent_rewriteObjects`).
-/
import LiteratureReview.Proofs.Schema.Meaning

namespace LiteratureReview

open Json

/-! ## §1. Removing a member. -/

theorem Members.lookup_without {members : Members} {key k : String} :
    (members.without key).lookup k = if k = key then none else members.lookup k := by
  by_cases same : k = key
  · rw [if_pos same, List.lookup_eq_none_iff]
    intro m mem
    have other : m.1 ≠ key := bne_iff_ne.1 (List.mem_filter.1 mem).2
    rw [same, bne_iff_ne]
    exact other.symm
  · rw [if_neg same]
    exact Json.lookup_without same

theorem Members.mem_of_mem_without {members : Members} {key : String} {m : String × Json}
    (mem : m ∈ members.without key) : m ∈ members := List.mem_of_mem_filter mem

theorem Members.isOrdered_without {members : Members} {key : String}
    (ordered : (Json.object members).IsOrdered) :
    (Json.object (members.without key)).IsOrdered := by
  obtain ⟨sorted, each⟩ := isOrdered_object_iff.1 ordered
  exact isOrdered_object_iff.2 ⟨sorted.sublist (List.filter_sublist.map _),
    fun m mem => each m (mem_of_mem_without mem)⟩

namespace JsonSchema

/-! ## §2. Schemas. -/

/-- What stands under a keyword. -/
inductive Kind where
  | schema
  | schemas
  | table
  /-- Values to compare with. -/
  | data
  | keys
  | types
  | other
  deriving DecidableEq, Repr

def kindOf (key : String) : Kind :=
  match key with
  | "else" | "if" | "items" | "not" | "then" => .schema
  | "allOf" | "anyOf" | "oneOf" => .schemas
  | "$defs" | "properties" => .table
  | "const" | "enum" => .data
  | "required" => .keys
  | "type" => .types
  | _ => .other

/-- A list of texts. -/
def isTexts : Json → Bool
  | .list items => items.all fun t => t.asText?.isSome
  | .null | .bool _ | .number _ | .text _ | .object _ => false

section

variable (object data : Members → Bool)

mutual

/-- Every object in the value passes a test. -/
def everyObject : Json → Bool
  | .null | .bool _ | .number _ | .text _ => true
  | .list items => everyObjectOf items
  | .object members => data members && everyObjectUnder members

def everyObjectOf : List Json → Bool
  | [] => true
  | v :: rest => everyObject v && everyObjectOf rest

def everyObjectUnder : Members → Bool
  | [] => true
  | (_, v) :: rest => everyObject v && everyObjectUnder rest

end

mutual

/-- The value is a schema; each schema in it that is an object passes one test, and each object
that values are compared with another one. -/
def isSchema : Json → Bool
  | .bool _ => true
  | .object members => object members && areKeywords members
  | .null | .number _ | .text _ | .list _ => false

/-- The members are keywords with what has to stand under them. -/
def areKeywords : Members → Bool
  | [] => true
  | (key, s) :: rest =>
    (match kindOf key with
      | .schema => isSchema s
      | .schemas => isSchemas s
      | .table => isTable s
      | .data => everyObject data s
      | .keys => isTexts s
      | .types => s.asText?.isSome || isTexts s
      | .other => true) && areKeywords rest

/-- The value is a list of schemas. -/
def isSchemas : Json → Bool
  | .list items => areSchemas items
  | .null | .bool _ | .number _ | .text _ | .object _ => false

def areSchemas : List Json → Bool
  | [] => true
  | s :: rest => isSchema s && areSchemas rest

/-- The value is an object with schemas under its keys. -/
def isTable : Json → Bool
  | .object members => areEntries members
  | .null | .bool _ | .number _ | .text _ | .list _ => false

def areEntries : Members → Bool
  | [] => true
  | (_, s) :: rest => isSchema s && areEntries rest

end

/-- What stands under a keyword is what has to stand there. -/
def isKeyword (key : String) (s : Json) : Bool :=
  match kindOf key with
  | .schema => isSchema object data s
  | .schemas => isSchemas object data s
  | .table => isTable object data s
  | .data => everyObject data s
  | .keys => isTexts s
  | .types => s.asText?.isSome || isTexts s
  | .other => true

variable {object data} {key : String} {s v : Json} {members : Members} {items : List Json}

theorem everyObject_list_iff :
    everyObject data (.list items) = true ↔ ∀ v ∈ items, everyObject data v = true := by
  rw [everyObject]
  induction items with
  | nil => simp [everyObjectOf]
  | cons v rest ih => rw [everyObjectOf, Bool.and_eq_true, ih, List.forall_mem_cons]

theorem everyObject_object_iff :
    everyObject data (.object members) = true ↔
      data members = true ∧ ∀ m ∈ members, everyObject data m.2 = true := by
  have each : ∀ members : Members, everyObjectUnder data members = true ↔
      ∀ m ∈ members, everyObject data m.2 = true := by
    intro members
    induction members with
    | nil => simp [everyObjectUnder]
    | cons m rest ih => rw [everyObjectUnder, Bool.and_eq_true, ih, List.forall_mem_cons]
  rw [everyObject, Bool.and_eq_true, each]

theorem isSchema_object_iff :
    isSchema object data (.object members) = true ↔
      object members = true ∧ ∀ m ∈ members, isKeyword object data m.1 m.2 = true := by
  have each : ∀ members : Members, areKeywords object data members = true ↔
      ∀ m ∈ members, isKeyword object data m.1 m.2 = true := by
    intro members
    induction members with
    | nil => simp [areKeywords]
    | cons m rest ih =>
      rw [areKeywords, Bool.and_eq_true, ih, List.forall_mem_cons]
      rfl
  rw [isSchema, Bool.and_eq_true, each]

theorem isSchemas_iff :
    isSchemas object data s = true ↔
      ∃ items, s = .list items ∧ ∀ t ∈ items, isSchema object data t = true := by
  have each : ∀ items : List Json, areSchemas object data items = true ↔
      ∀ t ∈ items, isSchema object data t = true := by
    intro items
    induction items with
    | nil => simp [areSchemas]
    | cons t rest ih => rw [areSchemas, Bool.and_eq_true, ih, List.forall_mem_cons]
  cases s with
  | list items => simp [isSchemas, each]
  | _ => simp [isSchemas]

theorem isTable_iff :
    isTable object data s = true ↔
      ∃ table, s = .object table ∧ ∀ m ∈ table, isSchema object data m.2 = true := by
  have each : ∀ table : Members, areEntries object data table = true ↔
      ∀ m ∈ table, isSchema object data m.2 = true := by
    intro table
    induction table with
    | nil => simp [areEntries]
    | cons m rest ih => rw [areEntries, Bool.and_eq_true, ih, List.forall_mem_cons]
  cases s with
  | object table => simp [isTable, each]
  | _ => simp [isTable]

theorem everyObject_of_isTexts (texts : isTexts s = true) : everyObject data s = true := by
  cases s with
  | list items =>
    refine everyObject_list_iff.2 fun t mem => ?_
    have some := List.all_eq_true.1 texts t mem
    cases t with
    | text _ => rfl
    | _ => cases some
  | _ => cases texts

theorem everyObject_of_isTypes (types : (s.asText?.isSome || isTexts s) = true) :
    everyObject data s = true := by
  cases s with
  | text _ => rfl
  | _ => exact everyObject_of_isTexts types

end

/-! ## §3. Sound steps. -/

/-- A step that can be taken at all objects of a schema. -/
structure IsSound (object data : Members → Bool) (step : Members → Members) : Prop where
  /-- What a schema means is kept. -/
  meaning : ∀ c v members, (Json.object members).IsOrdered →
    isSchema object data (.object members) = true →
    accepts c (.object (step members)) v = accepts c (.object members) v
  /-- A schema stays one. -/
  schema : ∀ members, (Json.object members).IsOrdered →
    isSchema object data (.object members) = true →
    isSchema object data (.object (step members)) = true
  /-- Keys stay in order, whatever the object is. -/
  ordered : ∀ members, (Json.object members).IsOrdered → (Json.object (step members)).IsOrdered
  /-- Definitions stay. -/
  definitions : ∀ members, (step members).lookup "$defs" = members.lookup "$defs"
  /-- A table of schemas stays; there are no lists in it. -/
  table : ∀ table : Members, (∀ m ∈ table, m.2.asList? = none) → step table = table
  /-- What values are compared with stays. -/
  compared : ∀ members, data members = true → step members = members

section

variable {object data : Members → Bool} {step : Members → Members} {c : Context} {n : Nat}
variable {key : String} {s v : Json} {members : Members} {items : List Json}

theorem rewriteObjects_list :
    rewriteObjects step (n + 1) (.list items) = .list (items.map (rewriteObjects step n)) := rfl

theorem rewriteObjects_object :
    rewriteObjects step (n + 1) (.object members) =
      .object ((step members).map fun m => (m.1, rewriteObjects step n m.2)) := rfl

/-- Rewriting keeps texts. -/
theorem asText?_rewriteObjects : (rewriteObjects step n s).asText? = s.asText? := by
  cases n <;> cases s <;> rfl

theorem keepsLimit_rewriteObjects {within : Number → Number → Bool} :
    keepsLimit within (rewriteObjects step n s) v = keepsLimit within s v := by
  cases n <;> cases s <;> rfl

theorem keepsLength_rewriteObjects {within : Number → Number → Bool} :
    keepsLength within (rewriteObjects step n s) v = keepsLength within s v := by
  cases n <;> cases s <;> rfl

theorem keepsCount_rewriteObjects {within : Number → Number → Bool} :
    keepsCount within (rewriteObjects step n s) v = keepsCount within s v := by
  cases n <;> cases s <;> rfl

/-- Schemas are no lists. -/
theorem asList?_of_isSchema (schema : isSchema object data s = true) : s.asList? = none := by
  cases s with
  | list items => cases schema
  | _ => rfl

/-- **Where no object passes for one to be rewritten, everything stays.** -/
theorem rewriteObjects_of_everyObject (sound : IsSound object data step)
    (plain : everyObject data s = true) : rewriteObjects step n s = s := by
  induction n generalizing s with
  | zero => rfl
  | succ n ih =>
    cases s with
    | list items =>
      have each : ∀ t ∈ items, rewriteObjects step n t = t := fun t mem =>
        ih (everyObject_list_iff.1 plain t mem)
      rw [rewriteObjects_list, List.map_congr_left each, List.map_id']
    | object members =>
      obtain ⟨here, below⟩ := everyObject_object_iff.1 plain
      rw [rewriteObjects_object, sound.compared members here]
      refine congrArg Json.object ((List.map_congr_left fun m mem => ?_).trans (List.map_id' _))
      rw [ih (below m mem)]
    | _ => rfl

/-- **Rewriting keeps keys in order**, whatever the objects are. -/
theorem isOrdered_rewriteObjects (sound : IsSound object data step) (ordered : s.IsOrdered) :
    (rewriteObjects step n s).IsOrdered := by
  induction n generalizing s with
  | zero => exact ordered
  | succ n ih =>
    cases s with
    | list items =>
      refine isOrdered_list_iff.2 (List.forall_mem_map.2 fun t mem => ?_)
      exact ih (isOrdered_list_iff.1 ordered t mem)
    | object members =>
      obtain ⟨sorted, inside⟩ := isOrdered_object_iff.1 (sound.ordered members ordered)
      rw [rewriteObjects_object, isOrdered_object_iff, List.map_map, List.forall_mem_map]
      exact ⟨sorted, fun m mem => ih (inside m mem)⟩
    | _ => exact ordered

theorem lookup_map_values (f : Json → Json) :
    (members.map fun m => (m.1, f m.2)).lookup key = (members.lookup key).map f := by
  induction members with
  | nil => rfl
  | cons m rest ih =>
    obtain ⟨k, w⟩ := m
    rw [List.map_cons, lookup_cons_ite, lookup_cons_ite, ih]
    split <;> rfl

/-! ## §4. Schemas whose parts are rewritten. -/

/-- Two schemas accept the same. -/
def Same (c : Context) (s t : Json) : Prop := ∀ v, accepts c s v = accepts c t v

/-- Schemas are rewritten, to some depth, into schemas that accept the same. -/
def KeepsSame (object data : Members → Bool) (step : Members → Members) (c : Context) (n : Nat) :
    Prop :=
  ∀ s : Json, s.IsOrdered → isSchema object data s = true → Same c (rewriteObjects step n s) s

theorem verdicts_rewriteObjects (each : ∀ m < n, KeepsSame object data step c m)
    (ordered : s.IsOrdered) (schemas : isSchemas object data s = true) :
    verdicts c (rewriteObjects step n s) v = verdicts c s v := by
  obtain ⟨items, rfl, listed⟩ := isSchemas_iff.1 schemas
  cases n with
  | zero => rfl
  | succ n =>
    rw [rewriteObjects_list, verdicts_list, verdicts_list, List.map_map]
    exact List.map_congr_left fun t mem =>
      each n n.lt_succ_self t (isOrdered_list_iff.1 ordered t mem) (listed t mem) v

theorem membersHold_rewriteObjects (sound : IsSound object data step)
    (each : ∀ m < n, KeepsSame object data step c m) (ordered : s.IsOrdered)
    (table : isTable object data s = true) :
    membersHold c (rewriteObjects step n s) v = membersHold c s v := by
  obtain ⟨entries, rfl, listed⟩ := isTable_iff.1 table
  cases n with
  | zero => rfl
  | succ n =>
    rw [rewriteObjects_object, sound.table entries fun m mem => asList?_of_isSchema (listed m mem),
      Bool.eq_iff_iff, membersHold_object_iff, membersHold_object_iff, List.forall_mem_map]
    refine forall₂_congr fun m mem => forall₂_congr fun w _ => ?_
    rw [each n n.lt_succ_self m.2 ((isOrdered_object_iff.1 ordered).2 m mem) (listed m mem) w]

/-- What a keyword without schemas says stays when what stands under it is rewritten. -/
theorem assertion_rewriteObjects (sound : IsSound object data step)
    (fits : isKeyword object data key s = true) :
    assertion c key (rewriteObjects step n s) v = assertion c key s v := by
  unfold assertion
  split
  next => rw [asText?_rewriteObjects]
  -- `const` and `enum`
  iterate 2 next => rw [rewriteObjects_of_everyObject sound fits]
  iterate 2 next => rw [keepsLimit_rewriteObjects]
  next => rw [keepsCount_rewriteObjects]
  next => rw [keepsLength_rewriteObjects]
  next => rw [keepsLimit_rewriteObjects]
  next => rw [keepsCount_rewriteObjects]
  next => rw [keepsLength_rewriteObjects]
  next => rw [keepsLimit_rewriteObjects]
  next => rw [asText?_rewriteObjects]
  -- `required` and `type`
  next => rw [rewriteObjects_of_everyObject sound (everyObject_of_isTexts fits)]
  next => rw [rewriteObjects_of_everyObject sound (everyObject_of_isTypes fits)]
  next => rfl

/-- What a keyword says stays when what stands under it is rewritten. -/
theorem keywordHolds_rewriteObjects (sound : IsSound object data step)
    (each : ∀ m ≤ n, KeepsSame object data step c m) (ordered : s.IsOrdered)
    (fits : isKeyword object data key s = true) :
    keywordHolds c key (rewriteObjects step n s) v = keywordHolds c key s v := by
  have below : ∀ m < n, KeepsSame object data step c m := fun m less => each m less.le
  unfold keywordHolds keyword
  split
  -- `allOf`, `anyOf` and `oneOf`
  iterate 3 next => rw [verdicts_rewriteObjects below ordered fits]
  -- `not` and `items`
  iterate 2 next => rw [funext (each n le_rfl s ordered fits)]
  next => rw [membersHold_rewriteObjects sound below ordered fits]
  next => exact assertion_rewriteObjects sound fits

/-- What stands under the keywords of a conditional is rewritten. -/
theorem conditionHolds_rewriteObjects (each : KeepsSame object data step c n)
    (ordered : (Json.object members).IsOrdered)
    (fits : ∀ m ∈ members, isKeyword object data m.1 m.2 = true) :
    conditionHolds c (members.map fun m => (m.1, rewriteObjects step n m.2)) v =
      conditionHolds c members v := by
  have part : ∀ key, kindOf key = .schema →
      ((members.lookup key).map (rewriteObjects step n)).map (fun s => accepts c s v) =
        (members.lookup key).map fun s => accepts c s v := by
    intro key kind
    cases found : members.lookup key with
    | none => rfl
    | some s =>
      have mem := mem_of_lookup found
      have schema := fits _ mem
      rw [isKeyword, kind] at schema
      exact congrArg some (each s ((isOrdered_object_iff.1 ordered).2 _ mem) schema v)
  rw [conditionHolds, lookup_map_values, lookup_map_values, lookup_map_values, part "if" rfl,
    part "then" rfl, part "else" rfl]
  rfl

/-- **Sound steps keep the meaning of a schema, at whatever depth they stop.** -/
theorem accepts_rewriteObjects (sound : IsSound object data step) (c : Context) (n : Nat) :
    KeepsSame object data step c n := by
  induction n using Nat.strongRecOn with
  | ind n ih =>
    intro s ordered schema v
    cases n with
    | zero => rfl
    | succ n =>
      cases s with
      | object members =>
        have ordered' := sound.ordered members ordered
        have schema' := sound.schema members ordered schema
        obtain ⟨-, fits⟩ := isSchema_object_iff.1 schema'
        obtain ⟨sorted, inside⟩ := isOrdered_object_iff.1 ordered'
        have below : ∀ m ≤ n, KeepsSame object data step c m :=
          fun m less => ih m (Nat.lt_succ_of_le less)
        -- first the object, and then what it holds after that
        rw [← sound.meaning c v members ordered schema, rewriteObjects_object, accepts, accepts,
          role_eq, role_eq, role_eq, role_eq, role_eq, role_eq]
        refine congrArg₂ _ ?_ (conditionHolds_rewriteObjects (below n le_rfl) ordered' fits)
        rw [Bool.eq_iff_iff, keywordsHold_iff, keywordsHold_iff, List.forall_mem_map]
        refine forall₂_congr fun m mem => ?_
        rw [keywordHolds_rewriteObjects sound below (inside m mem) (fits m mem)]
      | list items => cases schema
      | _ => rfl

end

/-! ## §5. Documents. -/

/-- Two documents say the same of every value, however references and regular expressions are
read and however many references are followed. -/
def Equivalent (s t : Json) : Prop :=
  ∀ d beyond n v, verdict d s beyond n v = verdict d t beyond n v

theorem accepts_iff_of_equivalent {s t : Json} (same : Equivalent s t) (d : Dialect) (v : Json) :
    Accepts d s v ↔ Accepts d t v :=
  exists_congr fun n => forall_congr' fun beyond => by rw [same]

theorem refuses_iff_of_equivalent {s t : Json} (same : Equivalent s t) (d : Dialect) (v : Json) :
    Refuses d s v ↔ Refuses d t v :=
  exists_congr fun n => forall_congr' fun beyond => by rw [same]

section

variable {object data : Members → Bool} {step : Members → Members} {d : Dialect} {s t : Json}

/-- Definitions are schemas. -/
theorem isSchema_of_target {ref : String} (ordered : s.IsOrdered)
    (schema : isSchema object data s = true) (found : target d s ref = some t) :
    t.IsOrdered ∧ isSchema object data t = true := by
  obtain ⟨name, -, found⟩ := Option.bind_eq_some_iff.1 found
  obtain ⟨defs, first, second⟩ := Option.bind_eq_some_iff.1 found
  refine ⟨(ordered.get? first).get? second, ?_⟩
  obtain ⟨members, rfl, first⟩ := get?_eq_some_iff.1 first
  have table : isTable object data defs = true :=
    (isSchema_object_iff.1 schema).2 _ (mem_of_lookup first)
  obtain ⟨entries, rfl, listed⟩ := isTable_iff.1 table
  exact listed _ (mem_of_lookup second)

/-- The definitions of a schema are rewritten one by one, to some depth. -/
theorem definitions_rewriteObjects (sound : IsSound object data step) (n : Nat)
    (schema : isSchema object data s = true) :
    ((rewriteObjects step n s).get? "$defs" = none ∧ s.get? "$defs" = none) ∨
      ∃ table m, s.get? "$defs" = some (.object table) ∧
        (rewriteObjects step n s).get? "$defs" =
          some (.object (table.map fun e => (e.1, rewriteObjects step m e.2))) := by
  cases s with
  | object members =>
    have defs : ∃ m, (rewriteObjects step n (.object members)).get? "$defs" =
        (members.lookup "$defs").map (rewriteObjects step m) := by
      cases n with
      | zero => exact ⟨0, Option.map_id'.symm⟩
      | succ n =>
        refine ⟨n, ?_⟩
        rw [rewriteObjects_object, get?, lookup_map_values, sound.definitions]
    obtain ⟨m, defs⟩ := defs
    rw [defs, get?]
    cases found : members.lookup "$defs" with
    | none => exact .inl ⟨rfl, rfl⟩
    | some held =>
      have table : isTable object data held = true :=
        (isSchema_object_iff.1 schema).2 _ (mem_of_lookup found)
      obtain ⟨entries, rfl, listed⟩ := isTable_iff.1 table
      refine .inr ⟨entries, m - 1, rfl, ?_⟩
      cases m with
      | zero => exact congrArg (fun es => some (Json.object es)) (List.map_id' entries).symm
      | succ m =>
        have noLists : ∀ e ∈ entries, e.2.asList? = none := fun e mem =>
          asList?_of_isSchema (listed e mem)
        rw [Option.map_some, rewriteObjects_object, sound.table entries noLists]
        rfl
  | list items => cases schema
  | _ => exact .inl ⟨by cases n <;> rfl, rfl⟩

/-- A reference leads to the definition that it led to, rewritten to some depth. -/
theorem target_rewriteObjects (sound : IsSound object data step) (n : Nat)
    (schema : isSchema object data s = true) (ref : String) :
    ∃ m, target d (rewriteObjects step n s) ref =
      (target d s ref).map (rewriteObjects step m) := by
  unfold target
  rcases definitions_rewriteObjects sound n schema with ⟨none, none'⟩ | ⟨table, m, found, rewritten⟩
  · rw [none, none']
    exact ⟨0, by cases d.definition ref <;> rfl⟩
  · rw [found, rewritten]
    refine ⟨m, ?_⟩
    cases d.definition ref with
    | none => rfl
    | some name => exact lookup_map_values _

/-- How many definitions a schema holds. -/
def definitionCount (s : Json) : Nat :=
  match s.get? "$defs" with
  | some (.object table) => table.length
  | _ => 0

theorem definitionCount_rewriteObjects (sound : IsSound object data step) (n : Nat)
    (schema : isSchema object data s = true) :
    definitionCount (rewriteObjects step n s) = definitionCount s := by
  unfold definitionCount
  rcases definitions_rewriteObjects sound n schema with ⟨none, none'⟩ | ⟨table, m, found, rewritten⟩
  · rw [none, none']
  · rw [found, rewritten]
    exact List.length_map _

/-- **Rewriting by sound steps gives an equivalent document.** -/
theorem equivalent_rewriteObjects (sound : IsSound object data step) (n : Nat)
    (ordered : s.IsOrdered) (schema : isSchema object data s = true) :
    Equivalent (rewriteObjects step n s) s := by
  intro d beyond k v
  have follows : follow d (rewriteObjects step n s) beyond k = follow d s beyond k := by
    induction k with
    | zero => rfl
    | succ k ih =>
      funext ref w
      obtain ⟨m, there⟩ := target_rewriteObjects (d := d) sound n schema ref
      rw [follow_succ, follow_succ, there, ih]
      cases found : target d s ref with
      | none => rfl
      | some t =>
        obtain ⟨ordered', schema'⟩ := isSchema_of_target ordered schema found
        exact accepts_rewriteObjects sound _ m t ordered' schema' w
  rw [verdict, verdict, follows]
  exact accepts_rewriteObjects sound _ n s ordered schema v

end

end JsonSchema

end LiteratureReview
