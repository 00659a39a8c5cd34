/-
  LiteratureReview.Proofs.Schema.Meaning
  ──────────────────────────────────────
  What a JSON Schema means, read off its JSON form.

  `accepts` gives the keywords of draft 2020-12 that the schemas of the
  program are built from their meaning there; every other keyword is an
  annotation.  It does not go through `Schema.read`, so that it speaks of
  every schema, whatever its regular expressions are and however its
  references are written; these two are left to a `Context`.

    • `accepts_object_iff` — an object by its keywords, one by one,
    • `verdict` — a document, so many references being followed,
    • `Accepts` — what it accepts, whatever lies behind further references.
-/
import LiteratureReview.Proofs.Json.Ordering
import LiteratureReview.Schema.Check
import LiteratureReview.Schema.Rewriting

namespace LiteratureReview.JsonSchema

open Json

/-! ## §1. Keywords without schemas of their own. -/

/-- What a schema leaves to others. -/
structure Context where
  /-- The text, given second, matches the regular expression. -/
  isMatch : String → String → Bool
  /-- What the reference leads to accepts the value. -/
  refers : String → Json → Bool

/-- The value is of the type with a name. -/
def isOfType (name v : Json) : Bool :=
  (name.asText?.bind fun s => ValueType.table.lookup s).any fun t => t.holds v

/-- The value is of the type, or of one of the types. -/
def isOfTypes : Json → Json → Bool
  | .list names, v => names.any fun name => isOfType name v
  | name, v => isOfType name v

/-- An object has all the keys; what is no object has to have none. -/
def hasKeys : Json → Json → Bool
  | .list keys, .object members =>
    keys.all fun key => key.asText?.all fun s => (members.lookup s).isSome
  | _, _ => true

/-- A number keeps a bound, which is given first. -/
def keepsLimit (within : Number → Number → Bool) : Json → Json → Bool
  | .number n, .number m => within n m
  | _, _ => true

/-- The length of a text keeps a bound. -/
def keepsLength (within : Number → Number → Bool) : Json → Json → Bool
  | .number n, .text s => within n (.int s.length)
  | _, _ => true

/-- The number of elements of a list keeps a bound. -/
def keepsCount (within : Number → Number → Bool) : Json → Json → Bool
  | .number n, .list items => within n (.int items.length)
  | _, _ => true

def isAtLeast (n m : Number) : Bool := !m.less n

def isAtMost (n m : Number) : Bool := !n.less m

/-- What a keyword without schemas of its own says of a value; nothing, if it is an annotation. -/
def assertion (c : Context) (key : String) (s v : Json) : Bool :=
  match key with
  | "$ref" => s.asText?.all fun name => c.refers name v
  | "const" => v.same s
  | "enum" => (s.asList?.getD []).any v.same
  | "exclusiveMaximum" => keepsLimit (fun n m => m.less n) s v
  | "exclusiveMinimum" => keepsLimit (fun n m => n.less m) s v
  | "maxItems" => keepsCount isAtMost s v
  | "maxLength" => keepsLength isAtMost s v
  | "maximum" => keepsLimit isAtMost s v
  | "minItems" => keepsCount isAtLeast s v
  | "minLength" => keepsLength isAtLeast s v
  | "minimum" => keepsLimit isAtLeast s v
  | "pattern" => s.asText?.all fun p => v.asText?.all fun t => c.isMatch p t
  | "required" => hasKeys s v
  | "type" => isOfTypes s v
  | _ => true

/-! ## §2. Schemas. -/

/-- What `if`, `then` and `else` say together, from what each of them says. -/
def chosen : (test consequence alternative : Option Bool) → Bool
  | none, _, _ => true
  | some true, consequence, _ => consequence.getD true
  | some false, _, alternative => alternative.getD true

/-- What a keyword says of a value, the parts of a conditional apart: from what its value says as
a schema, as a list of schemas, and as a table of schemas for members. -/
def keyword (c : Context) (key : String) (s v : Json) (self : Json → Bool) (list : List Bool)
    (table : Bool) : Bool :=
  match key with
  | "allOf" => list.all id
  | "anyOf" => list.any id
  | "oneOf" => list.count true == 1
  | "not" => !self v
  | "items" => (v.asList?.getD []).all self
  | "properties" => table
  | key => assertion c key s v

mutual

/-- The schema accepts the value. -/
def accepts (c : Context) : (schema v : Json) → Bool
  | .bool b, _ => b
  | .object members, v =>
    keywordsHold c members v &&
      chosen (role c "if" members v) (role c "then" members v) (role c "else" members v)
  | .null, _ | .number _, _ | .text _, _ | .list _, _ => true
termination_by structural schema => schema

/-- The keywords of a schema hold, the conditional apart. -/
def keywordsHold (c : Context) : Members → Json → Bool
  | [], _ => true
  | (key, s) :: rest, v =>
    keyword c key s v (fun w => accepts c s w) (verdicts c s v) (membersHold c s v) &&
      keywordsHold c rest v
termination_by structural members => members

/-- What the schema under a keyword says, if there is one. -/
def role (c : Context) (key : String) : Members → Json → Option Bool
  | [], _ => none
  | (k, s) :: rest, v => if k = key then some (accepts c s v) else role c key rest v
termination_by structural members => members

/-- What each schema of a list says. -/
def verdicts (c : Context) : Json → Json → List Bool
  | .list items, v => verdictsOf c items v
  | .null, _ | .bool _, _ | .number _, _ | .text _, _ | .object _, _ => []
termination_by structural list => list

/-- What each of some schemas says. -/
def verdictsOf (c : Context) : List Json → Json → List Bool
  | [], _ => []
  | s :: rest, v => accepts c s v :: verdictsOf c rest v
termination_by structural items => items

/-- The members that have a schema in a table satisfy it. -/
def membersHold (c : Context) : Json → Json → Bool
  | .object table, v => entriesHold c table v
  | .null, _ | .bool _, _ | .number _, _ | .text _, _ | .list _, _ => true
termination_by structural table => table

/-- The members that have a schema satisfy it. -/
def entriesHold (c : Context) : Members → Json → Bool
  | [], _ => true
  | (key, s) :: rest, v =>
    (match v.get? key with
      | some w => accepts c s w
      | none => true) && entriesHold c rest v
termination_by structural table => table

end

section

variable {c : Context} {key : String} {s v : Json} {members table : Members} {items : List Json}

@[simp] theorem verdicts_list : verdicts c (.list items) v = items.map fun s => accepts c s v := by
  rw [verdicts]
  induction items with
  | nil => rfl
  | cons s rest ih => rw [verdictsOf, ih, List.map_cons]

theorem role_eq : role c key members v = (members.lookup key).map fun s => accepts c s v := by
  induction members with
  | nil => rfl
  | cons m rest ih =>
    obtain ⟨k, s⟩ := m
    rw [role, ih, lookup_cons_ite]
    by_cases same : k = key
    · rw [if_pos same, if_pos same.symm, Option.map_some]
    · rw [if_neg same, if_neg (Ne.symm same)]

theorem membersHold_object_iff :
    membersHold c (.object table) v = true ↔
      ∀ m ∈ table, ∀ w, v.get? m.1 = some w → accepts c m.2 w = true := by
  rw [membersHold]
  induction table with
  | nil => simp [entriesHold]
  | cons m rest ih =>
    obtain ⟨k, s⟩ := m
    rw [entriesHold, Bool.and_eq_true, ih, List.forall_mem_cons]
    cases v.get? k <;> simp

/-- What a keyword of a schema says of a value. -/
def keywordHolds (c : Context) (key : String) (s v : Json) : Bool :=
  keyword c key s v (accepts c s) (verdicts c s v) (membersHold c s v)

theorem keywordsHold_iff :
    keywordsHold c members v = true ↔ ∀ m ∈ members, keywordHolds c m.1 m.2 v = true := by
  induction members with
  | nil => simp [keywordsHold]
  | cons m rest ih =>
    rw [keywordsHold, Bool.and_eq_true, ih, List.forall_mem_cons]
    rfl

/-- What the conditional of a schema says. -/
def conditionHolds (c : Context) (members : Members) (v : Json) : Bool :=
  chosen ((members.lookup "if").map fun s => accepts c s v)
    ((members.lookup "then").map fun s => accepts c s v)
    ((members.lookup "else").map fun s => accepts c s v)

/-- **A schema accepts what its keywords and its conditional accept.** -/
theorem accepts_object_iff (proper : (Json.object members).IsProper) :
    accepts c (.object members) v = true ↔
      (∀ key s, members.lookup key = some s → keywordHolds c key s v = true) ∧
        conditionHolds c members v = true := by
  have distinct := (isProper_object_iff.1 proper).1
  rw [accepts, Bool.and_eq_true, keywordsHold_iff, role_eq, role_eq, role_eq]
  refine and_congr_left fun _ => ?_
  exact ⟨fun each key s found => each (key, s) (mem_of_lookup found),
    fun each m mem => each m.1 m.2 (lookup_of_mem distinct mem)⟩

end

/-! ## §3. Documents. -/

/-- How regular expressions are matched and which definition a reference names, if it names
one. -/
structure Dialect where
  isMatch : String → String → Bool
  definition : String → Option String

variable {d : Dialect} {schema : Json} {beyond : String → Json → Bool}

/-- The definition that a reference leads to. -/
def target (d : Dialect) (schema : Json) (ref : String) : Option Json :=
  (d.definition ref).bind fun name => (schema.get? "$defs").bind fun defs => defs.get? name

/-- What a reference says, so many references being followed; what lies beyond them is given. -/
def follow (d : Dialect) (schema : Json) (beyond : String → Json → Bool) :
    Nat → String → Json → Bool
  | 0 => beyond
  | n + 1 => fun ref v =>
    match target d schema ref with
    | some s => accepts ⟨d.isMatch, follow d schema beyond n⟩ s v
    | none => beyond ref v

/-- What a document says of a value, so many references being followed. -/
def verdict (d : Dialect) (schema : Json) (beyond : String → Json → Bool) (n : Nat) (v : Json) :
    Bool :=
  accepts ⟨d.isMatch, follow d schema beyond n⟩ schema v

/-- A document accepts a value: this is settled once enough references have been followed. -/
def Accepts (d : Dialect) (schema v : Json) : Prop :=
  ∃ n, ∀ beyond, verdict d schema beyond n v = true

/-- A document refuses a value. -/
def Refuses (d : Dialect) (schema v : Json) : Prop :=
  ∃ n, ∀ beyond, verdict d schema beyond n v = false

theorem follow_succ (n : Nat) (ref : String) (v : Json) :
    follow d schema beyond (n + 1) ref v =
      match target d schema ref with
      | some s => accepts ⟨d.isMatch, follow d schema beyond n⟩ s v
      | none => beyond ref v := rfl

/-- Of several references the last one can be told in advance. -/
theorem follow_add_one (n : Nat) :
    follow d schema beyond (n + 1) = follow d schema (follow d schema beyond 1) n := by
  induction n with
  | zero => rfl
  | succ n ih =>
    funext ref v
    rw [follow_succ, follow_succ, ← ih, follow_succ]
    cases target d schema ref <;> rfl

/-- **What is settled stays settled**, however many more references are followed. -/
theorem verdict_of_settled {b : Bool} {n m : Nat} {v : Json} (more : n ≤ m)
    (settled : ∀ beyond, verdict d schema beyond n v = b) : verdict d schema beyond m v = b := by
  induction m, more using Nat.le_induction generalizing beyond with
  | base => exact settled beyond
  | succ m _ ih =>
    rw [verdict, follow_add_one]
    exact ih

/-- No value is both accepted and refused. -/
theorem not_refuses_of_accepts {v : Json} (yes : Accepts d schema v) : ¬Refuses d schema v := by
  rintro ⟨m, no⟩
  obtain ⟨n, yes⟩ := yes
  have first : verdict d schema (fun _ _ => true) (n + m) v = true :=
    verdict_of_settled (Nat.le_add_right n m) yes
  have second : verdict d schema (fun _ _ => true) (n + m) v = false :=
    verdict_of_settled (Nat.le_add_left m n) no
  exact Bool.false_ne_true (second.symm.trans first)

end LiteratureReview.JsonSchema
