/-
  LiteratureReview.Proofs.Schema.NullableOptions
  ──────────────────────────────────────────────
  Unfolding nullable options keeps what a schema accepts.

  A choice between some schema and null accepts what the schema accepts, if
  the value is not null (`any_verdicts_option`).  The conditional that takes
  its place says the same, as long as the object has no `else` that was idle
  before (`accepts_unfold`).
-/
import LiteratureReview.Proofs.Schema.Agreement
import LiteratureReview.Schema.NullableOptions

namespace LiteratureReview.NullableOptions

open Json JsonSchema

variable {c : Context} {v content : Json} {branches : List Json} {members : Members}

/-! ## §1. Null. -/

theorem accepts_nullSchema : accepts c nullSchema v = decide (v = .null) := by
  cases v <;> rfl

theorem accepts_notNull : accepts c notNull v = !decide (v = .null) := by
  cases v <;> rfl

/-- What stands beside the schema of null is the other one of two. -/
theorem beside_eq_some (found : beside branches = some content) :
    branches = [nullSchema, content] ∨ branches = [content, nullSchema] := by
  unfold beside at found
  split at found
  next a b =>
    split at found
    next first =>
      cases found
      exact .inl (by rw [first])
    next =>
      split at found
      next second =>
        cases found
        exact .inr (by rw [second])
      next => cases found
  next => cases found

/-- **A nullable option accepts null, and what the schema beside it accepts.** -/
theorem any_verdicts_option (found : beside branches = some content) :
    (verdicts c (.list branches) v).any id = (decide (v = .null) || accepts c content v) := by
  rcases beside_eq_some found with rfl | rfl
  · simp [accepts_nullSchema]
  · simp [accepts_nullSchema, Bool.or_comm]

/-! ## §2. One object. -/

/-- An `else` stands beside an `if`. -/
def elseHasIf (members : Members) : Bool :=
  (members.lookup "else").isNone || (members.lookup "if").isSome

/-- The object is no nullable option. -/
def isNoOption (members : Members) : Bool :=
  match members.lookup "anyOf" with
  | some (.list branches) => (beside branches).isNone
  | _ => true

/-- The object is a nullable option that is unfolded to some content. -/
structure IsOption (members : Members) (branches : List Json) (content : Json) : Prop where
  noTest : members.lookup "if" = none
  noConsequence : members.lookup "then" = none
  held : members.lookup "anyOf" = some (.list branches)
  found : beside branches = some content

/-- An object is unfolded if it is an option, and else left alone. -/
theorem unfold_cases (members : Members) :
    unfold members = members ∨ ∃ branches content, IsOption members branches content ∧
      unfold members =
        insertMember "then" content (insertMember "if" notNull (members.without "anyOf")) := by
  unfold unfold
  split
  next => exact .inl rfl
  next free =>
    simp only [Bool.or_eq_true, not_or, Bool.not_eq_true, Option.isSome_eq_false_iff,
      Option.isNone_iff_eq_none] at free
    split
    next branches held =>
      split
      next content found => exact .inr ⟨branches, content, ⟨free.1, free.2, held, found⟩, rfl⟩
      next => exact .inl rfl
    next => exact .inl rfl

/-- What stands under the keys of an unfolded option. -/
theorem lookup_unfolded (key : String) :
    (insertMember "then" content (insertMember "if" notNull (members.without "anyOf"))).lookup key =
      if key = "then" then some content else if key = "if" then some notNull
        else if key = "anyOf" then none else members.lookup key := by
  rw [lookup_insertMember, lookup_insertMember, Members.lookup_without]

/-- A member of an unfolded option is one of two new ones, or an old one. -/
theorem mem_unfolded {m : String × Json}
    (mem : m ∈ insertMember "then" content (insertMember "if" notNull (members.without "anyOf"))) :
    m = ("then", content) ∨ m = ("if", notNull) ∨ m ∈ members :=
  (mem_insertMember_iff mem).imp_right fun mem =>
    (mem_insertMember_iff mem).imp_right Members.mem_of_mem_without

theorem IsOption.mem (option : IsOption members branches content) : content ∈ branches := by
  rcases beside_eq_some option.found with rfl | rfl <;> simp

/-- The content of an option is a schema. -/
theorem IsOption.isSchema_content (option : IsOption members branches content)
    (schema : isSchema elseHasIf isNoOption (.object members) = true) :
    isSchema elseHasIf isNoOption content = true := by
  have choice : isSchemas elseHasIf isNoOption (.list branches) = true :=
    (isSchema_object_iff.1 schema).2 _ (mem_of_lookup option.held)
  obtain ⟨items, same, listed⟩ := isSchemas_iff.1 choice
  cases same
  exact listed _ option.mem

/-- Keys stay in order. -/
theorem isOrdered_unfold (ordered : (Json.object members).IsOrdered) :
    (Json.object (unfold members)).IsOrdered := by
  rcases unfold_cases members with same | ⟨branches, content, option, unfolded⟩
  · rwa [same]
  · have choice := isOrdered_of_lookup ordered option.held
    rw [unfolded]
    exact isOrdered_insertMember (isOrdered_insertMember (Members.isOrdered_without ordered)
      (by decide)) (isOrdered_list_iff.1 choice _ option.mem)

/-- An unfolded option is a schema. -/
theorem isSchema_unfold (schema : isSchema elseHasIf isNoOption (.object members) = true) :
    isSchema elseHasIf isNoOption (.object (unfold members)) = true := by
  rcases unfold_cases members with same | ⟨branches, content, option, unfolded⟩
  · rwa [same]
  · obtain ⟨-, fits⟩ := isSchema_object_iff.1 schema
    rw [unfolded]
    refine isSchema_object_iff.2 ⟨?_, fun m mem => ?_⟩
    · rw [elseHasIf, lookup_unfolded, lookup_unfolded]
      exact Bool.or_true _
    · rcases mem_unfolded mem with rfl | rfl | old
      · exact option.isSchema_content schema
      · rfl
      · exact fits m old

/-- Without an alternative, the conditional says what the choice said before. -/
theorem conditionHolds_unfolded (noAlternative : members.lookup "else" = none) :
    conditionHolds c
        (insertMember "then" content (insertMember "if" notNull (members.without "anyOf"))) v =
      (decide (v = .null) || accepts c content v) := by
  rw [conditionHolds, lookup_unfolded, lookup_unfolded, lookup_unfolded, noAlternative]
  show chosen (some (accepts c notNull v)) (some (accepts c content v)) none = _
  rw [accepts_notNull]
  cases decide (v = .null) <;> rfl

/-- The other keywords stay as they are. -/
theorem keywords_unfolded_iff (option : IsOption members branches content) :
    (∀ key s, (insertMember "then" content (insertMember "if" notNull
        (members.without "anyOf"))).lookup key = some s → keywordHolds c key s v = true) ↔
      ∀ key s, key ≠ "anyOf" → members.lookup key = some s → keywordHolds c key s v = true := by
  constructor
  · intro each key s other found
    refine each key s ?_
    have noTest : key ≠ "if" := by
      rintro rfl
      cases option.noTest.symm.trans found
    have noConsequence : key ≠ "then" := by
      rintro rfl
      cases option.noConsequence.symm.trans found
    rw [lookup_unfolded, if_neg noConsequence, if_neg noTest, if_neg other, found]
  · intro each key s found
    rw [lookup_unfolded] at found
    -- `if` and `then` assert nothing by themselves
    split at found
    next consequence =>
      rw [consequence]
      rfl
    next =>
      split at found
      next test =>
        rw [test]
        rfl
      next =>
        split at found
        next => cases found
        next other => exact each key s other found

/-- **Unfolding an option keeps its meaning.** -/
theorem accepts_unfold (ordered : (Json.object members).IsOrdered)
    (schema : isSchema elseHasIf isNoOption (.object members) = true) :
    accepts c (.object (unfold members)) v = accepts c (.object members) v := by
  have ordered' := isOrdered_unfold ordered
  rcases unfold_cases members with same | ⟨branches, content, option, unfolded⟩
  · rw [same]
  · have noAlternative : members.lookup "else" = none := by
      have beside := (isSchema_object_iff.1 schema).1
      rw [elseHasIf, option.noTest] at beside
      simpa using beside
    -- before, there is no conditional
    have idle : conditionHolds c members v = true := by
      rw [conditionHolds, option.noTest]
      rfl
    rw [Bool.eq_iff_iff, accepts_object_iff ordered'.isProper,
      accepts_object_iff ordered.isProper, unfolded, keywords_unfolded_iff option,
      conditionHolds_unfolded noAlternative, ← any_verdicts_option option.found, idle]
    constructor
    · rintro ⟨others, choice⟩
      refine ⟨fun key s found => ?_, rfl⟩
      by_cases any : key = "anyOf"
      · subst any
        cases option.held.symm.trans found
        exact choice
      · exact others key s any found
    · rintro ⟨each, -⟩
      exact ⟨fun key s _ => each key s, each "anyOf" _ option.held⟩

/-! ## §3. Schemas. -/

theorem isSound_unfold : IsSound elseHasIf isNoOption unfold where
  meaning _ _ _ ordered schema := accepts_unfold ordered schema
  schema _ _ schema := isSchema_unfold schema
  ordered _ ordered := isOrdered_unfold ordered
  definitions members := by
    rcases unfold_cases members with same | ⟨branches, content, -, unfolded⟩
    · rw [same]
    · rw [unfolded, lookup_unfolded]
      rfl
  table table noLists := by
    rcases unfold_cases table with same | ⟨branches, content, option, -⟩
    · exact same
    · cases noLists _ (mem_of_lookup option.held)
  compared members plain := by
    rcases unfold_cases members with same | ⟨branches, content, option, -⟩
    · exact same
    · rw [isNoOption, option.held] at plain
      simp [option.found] at plain

/-- A schema that can be rewritten: where there is an `else` there is an `if`, and no option is
among the values to compare with. -/
def IsPlain (schema : Json) : Prop := isSchema elseHasIf isNoOption schema = true

instance (schema : Json) : Decidable (IsPlain schema) := inferInstanceAs (Decidable (_ = true))

/-- **Unfolding nullable options keeps what a schema means**: the same values
are accepted and refused, in every dialect and after any number of references. -/
theorem meansSame_unfolded (schema : Json) (ordered : schema.IsOrdered)
    (plain : IsPlain schema) : MeansSame (resolve schema) schema :=
  .of_isSound isSound_unfold _ ordered plain

/-- Chains of links with a weight each, either of which may be null. -/
def chains : Json :=
  .object
    [("$defs", .object
      [("link", .object
        [("properties", .object
          [("next", .object
            [("anyOf", .list [.object [("$ref", .text "#/$defs/link")], nullSchema])]),
           ("weight", .object
            [("anyOf", .list [nullSchema, .object [("type", .text "integer")]]),
             ("minimum", .number (.int 1))])]),
         ("required", texts ["next"]),
         ("type", .text "object")])]),
     ("$ref", .text "#/$defs/link")]

/-- Links may be null, in either order of the branches: a chain of two links is one, and a link that
leaves out the next one is none. -/
theorem meansSame_unfolded_chains :
    resolve chains ≠ chains ∧ MeansSame (resolve chains) chains ∧
      Accepts dialect (resolve chains)
        (.object [("next", .object [("next", .null), ("weight", .null)]),
          ("weight", .number (.int 3))]) ∧
      Refuses dialect (resolve chains) (.object [("next", .object [])]) := by
  have same := meansSame_unfolded chains (by decide +kernel) (by decide +kernel)
  exact ⟨by decide +kernel, same, (same.accepts _ _).2 ⟨3, fun _ => by with_unfolding_all rfl⟩,
    (same.refuses _ _).2 ⟨2, fun _ => by with_unfolding_all rfl⟩⟩

end LiteratureReview.NullableOptions
