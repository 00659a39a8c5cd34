/-
  LiteratureReview.Proofs.Schema.Agreement
  ────────────────────────────────────────
  The program checks values by the meaning of schemas.

  What `Schema.read` makes of a schema holds of a value exactly if the schema
  accepts it (`holds_of_read`): keyword by keyword, then the conditional that
  is put together from `if`, `then` and `else` (`Reading.holds_all`).
  Definitions are read and referred to by the same names, so a document finds
  no violation in the values that it accepts, with as many references as it
  follows (`violations_eq_nil_iff_verdict`).

  What rewriting keeps is `MeansSame`: what a schema accepts and refuses, and
  where the program finds violations (`MeansSame.of_isSound`).
-/
import LiteratureReview.Proofs.Json.Records
import LiteratureReview.Proofs.Schema.Acceptance
import LiteratureReview.Proofs.Schema.Rewriting

namespace LiteratureReview.JsonSchema

open Json Schema

/-! ## §1. Keywords without schemas of their own. -/

/-- Regular expressions and references mean what the program takes them for. -/
structure Agrees (c : Context) (known : Known) : Prop where
  isMatch : ∀ source p, Pattern.ofText source = some p → ∀ t, c.isMatch source t = p.accepts t
  refers : ∀ ref name, definitionOf (.text ref) = some name → ∀ v, c.refers ref v = known name v

variable {c : Context} {known : Known} {key : String} {s v : Json} {members : Members}

theorem isAtLeast_int (n m : Nat) : isAtLeast (.int n) (.int m) = decide (n ≤ m) := by
  rw [Bool.eq_iff_iff]
  simp [isAtLeast, Number.less, Number.numerator, Number.denominator]

theorem isAtMost_int (n m : Nat) : isAtMost (.int n) (.int m) = decide (m ≤ n) := by
  rw [Bool.eq_iff_iff]
  simp [isAtMost, Number.less, Number.numerator, Number.denominator]

theorem eq_number_of_numberOf {n : Number} (read : numberOf s = some n) : s = .number n := by
  cases s <;> cases read
  rfl

theorem eq_nat_of_countOf {n : Nat} (read : countOf s = some n) : s = .number (.int n) := by
  unfold countOf at read
  split at read
  next => cases read; rfl
  next => cases read

theorem eq_texts_of_textsOf {names : List String} (read : textsOf s = some names) :
    s = texts names := by
  cases s with
  | list items =>
    have each : ∀ items names, List.mapM asText? items = some names →
        items = names.map Json.text := by
      intro items
      induction items with
      | nil =>
        intro names read
        cases read
        rfl
      | cons t rest ih =>
        intro names read
        rw [List.mapM_cons] at read
        obtain ⟨name, first, read⟩ := Option.bind_eq_some_iff.1 read
        obtain ⟨later, others, read⟩ := Option.bind_eq_some_iff.1 read
        cases read
        cases t <;> cases first
        rw [ih later others]
        rfl
    exact congrArg Json.list (each items names read)
  | _ => cases read

/-- The types that are read are those that are named. -/
theorem any_typesOf {ts : List ValueType} (read : typesOf s = some ts) :
    isOfTypes s v = ts.any fun t => t.holds v := by
  have distinct : (ValueType.table.map (·.1)).Nodup := by decide
  cases s with
  | text name =>
    obtain ⟨t, found, rfl⟩ := Option.map_eq_some_iff.1 read
    show ((ValueType.table.lookup name).any fun t => t.holds v) = _
    rw [found]
    simp
  | list items =>
    obtain ⟨names, all, named⟩ := Option.bind_eq_some_iff.1 read
    obtain rfl : items = names.map Json.text :=
      Json.list.inj (eq_texts_of_textsOf (show textsOf (.list items) = some names from all))
    split at named
    next =>
      cases named
      show ((names.map Json.text).any fun name => isOfType name v) = _
      rw [Bool.eq_iff_iff]
      simp only [List.any_map, List.any_eq_true, Function.comp_apply, isOfType, asText?,
        Option.bind_some, Option.any_eq_true, List.mem_filterMap, Option.ite_none_right_eq_some,
        List.contains_iff_mem, Option.some.injEq]
      constructor
      · rintro ⟨name, mem, t, found, holds⟩
        exact ⟨t, ⟨(name, t), mem_of_lookup found, mem, rfl⟩, holds⟩
      · rintro ⟨_, ⟨⟨name, t⟩, mem, listed, rfl⟩, holds⟩
        exact ⟨name, listed, t, lookup_of_mem distinct mem, holds⟩
    next => cases named
  | _ => cases read

theorem hasKeys_texts (names : List String) :
    hasKeys (texts names) v = (missingKeys names v).isEmpty := by
  cases v with
  | object members =>
    show ((names.map Json.text).all fun key => key.asText?.all fun s => (members.lookup s).isSome) =
      (names.filter fun k => (members.lookup k).isNone).isEmpty
    rw [Bool.eq_iff_iff, List.isEmpty_iff, List.filter_eq_nil_iff, List.all_map, List.all_eq_true]
    refine forall₂_congr fun name _ => ?_
    cases found : members.lookup name <;> simp [asText?, found]
  | _ => rfl

/-- **A keyword says what its assertion says**, and nothing if it has none. -/
theorem assertion_eq (agrees : Agrees c known) {part : Option Schema}
    (read : Schema.assertion key s = some part) :
    assertion c key s v = part.all fun t => t.holds known v := by
  unfold Schema.assertion at read
  split at read
  next =>
    obtain ⟨name, found, rfl⟩ := Option.map_eq_some_iff.1 read
    cases s with
    | text ref => exact agrees.refers ref name found v
    | _ => cases found
  next =>
    cases read
    rfl
  next =>
    obtain ⟨items, found, rfl⟩ := Option.map_eq_some_iff.1 read
    show (s.asList?.getD []).any v.same = items.any v.same
    rw [found, Option.getD_some]
  iterate 2 next =>
    obtain ⟨n, found, rfl⟩ := Option.map_eq_some_iff.1 read
    obtain rfl := eq_number_of_numberOf found
    cases v <;> rfl
  iterate 2 next =>
    obtain ⟨n, found, rfl⟩ := Option.map_eq_some_iff.1 read
    obtain rfl := eq_nat_of_countOf found
    cases v <;> first | exact isAtMost_int _ _ | rfl
  next =>
    obtain ⟨n, found, rfl⟩ := Option.map_eq_some_iff.1 read
    obtain rfl := eq_number_of_numberOf found
    cases v <;> rfl
  iterate 2 next =>
    obtain ⟨n, found, rfl⟩ := Option.map_eq_some_iff.1 read
    obtain rfl := eq_nat_of_countOf found
    cases v <;> first | exact isAtLeast_int _ _ | rfl
  next =>
    obtain ⟨n, found, rfl⟩ := Option.map_eq_some_iff.1 read
    obtain rfl := eq_number_of_numberOf found
    cases v <;> rfl
  next =>
    obtain ⟨p, found, rfl⟩ := Option.map_eq_some_iff.1 read
    obtain ⟨source, text, found⟩ := Option.bind_eq_some_iff.1 found
    show (s.asText?.all fun p => v.asText?.all fun t => c.isMatch p t) = p.holds v
    rw [text]
    cases v with
    | text t => exact agrees.isMatch source p found t
    | _ => rfl
  next =>
    obtain ⟨names, found, rfl⟩ := Option.map_eq_some_iff.1 read
    obtain rfl := eq_texts_of_textsOf found
    exact hasKeys_texts names
  next =>
    obtain ⟨ts, found, rfl⟩ := Option.map_eq_some_iff.1 read
    exact any_typesOf found
  next =>
    cases read
    unfold assertion
    split <;> first | rfl | contradiction

/-! ## §2. Parts of a schema. -/

/-- What a part asserts by itself. -/
def asserted : Part → Option Schema
  | .assertion t => some t
  | _ => none

/-- The condition of a conditional. -/
def tested : Part → Option Schema
  | .test t => some t
  | _ => none

/-- What has to hold if the condition does. -/
def consequent : Part → Option Schema
  | .consequence t => some t
  | _ => none

/-- What has to hold if the condition does not. -/
def alternate : Part → Option Schema
  | .alternative t => some t
  | _ => none

/-- What some parts say in a role. -/
def spoken (known : Known) (inRole : Part → Option Schema) (parts : List Part) (v : Json) :
    List Bool :=
  (parts.filterMap inRole).map fun t => t.holds known v

/-- The parts say what the keywords do that they were read from. -/
structure Reading (c : Context) (known : Known) (members : Members) (parts : List Part) : Prop where
  keywords : ∀ v, (spoken known asserted parts v).all id = keywordsHold c members v
  test : ∀ v, spoken known tested parts v = (role c "if" members v).toList
  consequence : ∀ v, spoken known consequent parts v = (role c "then" members v).toList
  alternative : ∀ v, spoken known alternate parts v = (role c "else" members v).toList

theorem Reading.nil : Reading c known [] [] :=
  ⟨fun _ => rfl, fun _ => rfl, fun _ => rfl, fun _ => rfl⟩

/-- A keyword that asserts something by itself, or nothing. -/
theorem Reading.ofAssertion (part : Option Schema)
    (noRole : key ≠ "if" ∧ key ≠ "then" ∧ key ≠ "else")
    (same : ∀ v, (part.all fun t => t.holds known v) = keywordHolds c key s v) :
    Reading c known [(key, s)] (part.toList.map .assertion) := by
  have nothing : ∀ inRole : Part → Option Schema, (∀ t, inRole (.assertion t) = none) →
      ∀ v, spoken known inRole (part.toList.map .assertion) v = [] := by
    intro inRole none v
    cases part <;> simp [spoken, none]
  obtain ⟨noTest, noConsequence, noAlternative⟩ := noRole
  refine ⟨fun v => ?_, fun v => ?_, fun v => ?_, fun v => ?_⟩
  · show _ = (keywordHolds c key s v && true)
    rw [← same, Bool.and_true]
    cases part <;> simp [spoken, asserted]
  · rw [nothing tested fun _ => rfl, role, if_neg noTest]
    rfl
  · rw [nothing consequent fun _ => rfl, role, if_neg noConsequence]
    rfl
  · rw [nothing alternate fun _ => rfl, role, if_neg noAlternative]
    rfl

theorem role_cons {m : String × Json} {rest : Members} :
    role c key (m :: rest) v = (role c key [m] v).or (role c key rest v) := by
  obtain ⟨k, s⟩ := m
  rw [role, role, role]
  split <;> rfl

/-- Keywords are read one after the other. -/
theorem Reading.cons {m : String × Json} {rest : Members} {here later : List Part}
    (fresh : rest.lookup m.1 = none) (first : Reading c known [m] here)
    (others : Reading c known rest later) : Reading c known (m :: rest) (here ++ later) := by
  have both : ∀ inRole v, spoken known inRole (here ++ later) v =
      spoken known inRole here v ++ spoken known inRole later v := by
    intro inRole v
    rw [spoken, List.filterMap_append, List.map_append]
    rfl
  -- under distinct keys one of the two sides has nothing in a role
  have roles : ∀ key v, (role c key (m :: rest) v).toList =
      (role c key [m] v).toList ++ (role c key rest v).toList := by
    intro key v
    by_cases same : m.1 = key
    · subst same
      have none : role c m.1 rest v = none := by
        rw [role_eq, fresh]
        rfl
      rw [role_cons, none, Option.or_none]
      exact (List.append_nil _).symm
    · have none : role c key [m] v = none := by
        rw [role_eq, List.lookup_cons, beq_false_of_ne (Ne.symm same)]
        rfl
      rw [role_cons, none, Option.none_or]
      rfl
  refine ⟨fun v => ?_, fun v => ?_, fun v => ?_, fun v => ?_⟩
  · rw [both, List.all_append, first.keywords, others.keywords, keywordsHold, keywordsHold,
      keywordsHold, Bool.and_true]
  · rw [both, first.test, others.test, roles]
  · rw [both, first.consequence, others.consequence, roles]
  · rw [both, first.alternative, others.alternative, roles]

/-- The schema in a role says what was last said in it. -/
theorem holds_roleOf {inRole : Part → Option Schema} {parts : List Part} :
    (roleOf parts inRole).holds known v = ((spoken known inRole parts v).getLast?).getD true := by
  rw [roleOf, ← List.head?_filterMap, List.filterMap_reverse, List.head?_reverse, spoken,
    List.getLast?_map]
  cases (parts.filterMap inRole).getLast? <;> rfl

/-- What a part becomes, beside a consequence and an alternative. -/
def joined (consequence alternative : Schema) : Part → Option Schema
  | .assertion t => some t
  | .test t => some (.conditional t consequence alternative)
  | .consequence _ | .alternative _ => none

/-- Parts say what they assert, and choose by their condition. -/
theorem holdsAll_joined {consequence alternative : Schema} {parts : List Part} :
    holdsAll known (parts.filterMap (joined consequence alternative)) v =
      ((spoken known asserted parts v).all id && (spoken known tested parts v).all fun b =>
        if b then consequence.holds known v else alternative.holds known v) := by
  induction parts with
  | nil => rfl
  | cons part rest ih =>
    cases part with
    | assertion t =>
      show (t.holds known v && holdsAll known _ v) = ((t.holds known v && _) && _)
      rw [ih, Bool.and_assoc]
      rfl
    | test t =>
      show ((if t.holds known v then _ else _) && holdsAll known _ v) =
        (_ && ((if t.holds known v then _ else _) && _))
      rw [ih, Bool.and_left_comm]
      rfl
    | consequence t => exact ih
    | alternative t => exact ih

theorem assemble_eq (parts : List Part) :
    assemble parts =
      parts.filterMap (joined (roleOf parts consequent) (roleOf parts alternate)) := rfl

/-- **Keywords that are read and put together say what the object does.** -/
theorem Reading.holds_all {parts : List Part} (reading : Reading c known members parts) (v : Json) :
    (Schema.all (assemble parts)).holds known v = accepts c (.object members) v := by
  have last : ∀ o : Option Bool, o.toList.getLast? = o := by
    intro o
    cases o <;> rfl
  rw [holds, assemble_eq, holdsAll_joined, holds_roleOf, holds_roleOf, reading.keywords,
    reading.test, reading.consequence, reading.alternative, last, last, accepts]
  refine congrArg _ ?_
  rcases role c "if" members v with _ | _ | _
  · rfl
  · exact Bool.and_true _
  · exact Bool.and_true _

/-! ## §3. Reading. -/

theorem holdsAll_eq_all {parts : List Schema} :
    holdsAll known parts v = (parts.map fun t => t.holds known v).all id := by
  induction parts with
  | nil => rfl
  | cons t rest ih => rw [holdsAll, ih, List.map_cons, List.all_cons, id]

theorem holdCount_eq_count {branches : List Schema} :
    holdCount known branches v = (branches.map fun t => t.holds known v).count true := by
  induction branches with
  | nil => rfl
  | cons t rest ih =>
    rw [holdCount, ih, List.map_cons, List.count_cons, Nat.add_comm]
    cases t.holds known v <;> rfl

theorem any_id_eq_count (verdicts : List Bool) :
    verdicts.any id = decide (0 < verdicts.count true) := by
  rw [Bool.eq_iff_iff, List.any_eq_true, decide_eq_true_eq, List.count_pos_iff]
  exact ⟨fun ⟨b, mem, yes⟩ => yes ▸ mem, fun mem => ⟨true, mem, rfl⟩⟩

/-- A keyword whose value is read for one assertion. -/
theorem Reading.ofMap {α : Type} {x : Except SchemaFault α} {f : α → Schema} {here : List Part}
    (noRole : key ≠ "if" ∧ key ≠ "then" ∧ key ≠ "else")
    (first : (x.map fun a => [Part.assertion (f a)]) = .ok here)
    (same : ∀ a, x = .ok a → ∀ v, (f a).holds known v = keywordHolds c key s v) :
    Reading c known [(key, s)] here := by
  obtain ⟨a, done, rfl⟩ := exists_of_map_eq_ok first
  exact Reading.ofAssertion (some (f a)) noRole (same a done)

/-- The first keyword is read, and then the others. -/
theorem Reading.of_bind {rest : Members} {parts : List Part}
    {first : Except SchemaFault (List Part)} (fresh : rest.lookup key = none)
    (done : (first >>= fun here => readKeywords rest >>= fun later => pure (here ++ later)) =
      .ok parts)
    (others : ∀ later, readKeywords rest = .ok later → Reading c known rest later)
    (single : ∀ here, first = .ok here → Reading c known [(key, s)] here) :
    Reading c known ((key, s) :: rest) parts := by
  obtain ⟨here, one, done⟩ := exists_of_bind_eq_ok done
  obtain ⟨later, behind, same⟩ := exists_of_bind_eq_ok done
  cases same
  exact Reading.cons fresh (single here one) (others later behind)

mutual

/-- **What is read of a schema holds of the values that the schema accepts.** -/
theorem holds_of_read (agrees : Agrees c known) : (s : Json) → s.IsProper → {t : Schema} →
    read s = .ok t → (v : Json) → t.holds known v = accepts c s v
  | .bool true, _, _, done, _ => by
    cases done
    rfl
  | .bool false, _, _, done, _ => by
    cases done
    rfl
  | .object members, proper, _, done, v => by
    obtain ⟨parts, keywords, same⟩ := exists_of_bind_eq_ok done
    cases same
    obtain ⟨distinct, inside⟩ := isProper_object_iff.1 proper
    exact (reading_of_readKeywords agrees members distinct inside keywords).holds_all v
  | .null, _, _, done, _ | .number _, _, _, done, _ | .text _, _, _, done, _
  | .list _, _, _, done, _ => by cases done

/-- Every keyword is read for what it says. -/
theorem reading_of_readKeywords (agrees : Agrees c known) : (members : Members) →
    (members.map (·.1)).Nodup → (∀ m ∈ members, m.2.IsProper) → {parts : List Part} →
    readKeywords members = .ok parts → Reading c known members parts
  | [], _, _, _, done => by
    cases done
    exact Reading.nil
  | (key, s) :: rest, distinct, inside, parts, done => by
    obtain ⟨proper, inside⟩ := List.forall_mem_cons.1 inside
    obtain ⟨fresh, distinct⟩ := List.nodup_cons.1 distinct
    replace fresh := lookup_eq_none_of_not_mem fresh
    have others : ∀ later, readKeywords rest = .ok later → Reading c known rest later :=
      fun _ behind => reading_of_readKeywords agrees rest distinct inside behind
    unfold readKeywords at done
    split at done
    -- `allOf`, `anyOf` and `oneOf`
    next =>
      refine .of_bind fresh done others fun _ first => .ofMap (by decide) first fun ts list v => ?_
      show holdsAll known ts v = (verdicts c s v).all id
      rw [holdsAll_eq_all, holds_of_readList agrees s proper list]
    next =>
      refine .of_bind fresh done others fun _ first => .ofMap (by decide) first fun ts list v => ?_
      show decide (0 < holdCount known ts v) = (verdicts c s v).any id
      rw [holdCount_eq_count, holds_of_readList agrees s proper list, any_id_eq_count]
    next =>
      refine .of_bind fresh done others fun _ first => .ofMap (by decide) first fun ts list v => ?_
      show (holdCount known ts v == 1) = ((verdicts c s v).count true == 1)
      rw [holdCount_eq_count, holds_of_readList agrees s proper list]
    -- `not`, `items` and `properties`
    next =>
      refine .of_bind fresh done others fun _ first => .ofMap (by decide) first fun t part v => ?_
      show (!t.holds known v) = !accepts c s v
      rw [holds_of_read agrees s proper part]
    next =>
      refine .of_bind fresh done others fun _ first => .ofMap (by decide) first fun t part v => ?_
      show ((v.asList?.getD []).all fun w => t.holds known w) =
        (v.asList?.getD []).all (accepts c s)
      rw [funext (holds_of_read agrees s proper part)]
    next =>
      refine .of_bind fresh done others fun _ first => .ofMap (by decide) first fun ts table v => ?_
      exact holds_of_readTable agrees s proper table v
    -- `if`, `then` and `else`
    iterate 3 next =>
      refine .of_bind fresh done others fun here first => ?_
      obtain ⟨t, part, rfl⟩ := exists_of_map_eq_ok first
      have same : ∀ v, t.holds known v = accepts c s v := holds_of_read agrees s proper part
      exact ⟨fun _ => rfl, fun v => by simp [spoken, tested, role, same],
        fun v => by simp [spoken, consequent, role, same],
        fun v => by simp [spoken, alternate, role, same]⟩
    -- a keyword without schemas of its own
    next =>
      have single : ∀ part, Schema.assertion key s = some part →
          Reading c known [(key, s)] (part.toList.map .assertion) := by
        intro part found
        refine Reading.ofAssertion part ⟨‹_›, ‹_›, ‹_›⟩ fun v => ?_
        rw [← assertion_eq agrees found]
        unfold keywordHolds keyword
        split <;> first | rfl | contradiction
      split at done
      next t found =>
        refine .of_bind fresh done others fun here first => ?_
        cases first
        exact single _ found
      next found =>
        refine .of_bind fresh done others fun here first => ?_
        cases first
        exact single _ found
      next => cases done

theorem holds_of_readList (agrees : Agrees c known) : (s : Json) → s.IsProper → {key : String} →
    {ts : List Schema} → readList key s = .ok ts → (v : Json) →
    (ts.map fun t => t.holds known v) = verdicts c s v
  | .list items, proper, _, _, done, v =>
    holds_of_readItems agrees items (isProper_list_iff.1 proper) done v
  | .null, _, _, _, done, _ | .bool _, _, _, _, done, _ | .number _, _, _, _, done, _
  | .text _, _, _, _, done, _ | .object _, _, _, _, done, _ => by cases done

theorem holds_of_readItems (agrees : Agrees c known) : (items : List Json) →
    (∀ s ∈ items, s.IsProper) → {ts : List Schema} → readItems items = .ok ts → (v : Json) →
    (ts.map fun t => t.holds known v) = verdictsOf c items v
  | [], _, _, done, _ => by
    cases done
    rfl
  | s :: rest, inside, _, done, v => by
    rw [readItems] at done
    obtain ⟨t, first, done⟩ := exists_of_bind_eq_ok done
    obtain ⟨ts, others, same⟩ := exists_of_bind_eq_ok done
    cases same
    obtain ⟨proper, inside⟩ := List.forall_mem_cons.1 inside
    rw [List.map_cons, verdictsOf, holds_of_read agrees s proper first,
      holds_of_readItems agrees rest inside others]

theorem holds_of_readTable (agrees : Agrees c known) : (s : Json) → s.IsProper → {key : String} →
    {ts : List (String × Schema)} → readTable key s = .ok ts → (v : Json) →
    holdsMembers known ts v = membersHold c s v
  | .object table, proper, _, _, done, v =>
    holds_of_readMembers agrees table (isProper_object_iff.1 proper).2 done v
  | .null, _, _, _, done, _ | .bool _, _, _, _, done, _ | .number _, _, _, _, done, _
  | .text _, _, _, _, done, _ | .list _, _, _, _, done, _ => by cases done

theorem holds_of_readMembers (agrees : Agrees c known) : (table : Members) →
    (∀ m ∈ table, m.2.IsProper) → {ts : List (String × Schema)} → readMembers table = .ok ts →
    (v : Json) → holdsMembers known ts v = entriesHold c table v
  | [], _, _, done, _ => by
    cases done
    rfl
  | (key, s) :: rest, inside, _, done, v => by
    rw [readMembers] at done
    obtain ⟨t, first, done⟩ := exists_of_bind_eq_ok done
    obtain ⟨ts, others, same⟩ := exists_of_bind_eq_ok done
    cases same
    obtain ⟨proper, inside⟩ := List.forall_mem_cons.1 inside
    rw [holdsMembers, entriesHold, holds_of_readMembers agrees rest inside others]
    cases v.get? key with
    | none => rfl
    | some w => exact congrArg (· && _) (holds_of_read agrees s proper first w)

end

/-! ## §4. Documents. -/

/-- The dialect of the program: the patterns that it reads, and references to `$defs`. -/
def dialect : Dialect where
  isMatch source t := (Pattern.ofText source).any fun p => p.accepts t
  definition ref := definitionOf (.text ref)

/-- A table is read name by name. -/
theorem lookup_readMembers {table : Members} {ts : List (String × Schema)}
    (done : readMembers table = .ok ts) (name : String) :
    (table.lookup name = none ∧ ts.lookup name = none) ∨
      ∃ s t, table.lookup name = some s ∧ ts.lookup name = some t ∧ read s = .ok t := by
  induction table generalizing ts with
  | nil =>
    cases done
    exact .inl ⟨rfl, rfl⟩
  | cons m rest ih =>
    obtain ⟨k, s⟩ := m
    rw [readMembers] at done
    obtain ⟨t, first, done⟩ := exists_of_bind_eq_ok done
    obtain ⟨later, others, same⟩ := exists_of_bind_eq_ok done
    cases same
    rw [List.lookup_cons, List.lookup_cons]
    cases name == k with
    | true => exact .inr ⟨s, t, rfl, rfl, first⟩
    | false => exact ih others

theorem length_of_readMembers {table : Members} {ts : List (String × Schema)}
    (done : readMembers table = .ok ts) : ts.length = table.length := by
  induction table generalizing ts with
  | nil =>
    cases done
    rfl
  | cons m rest ih =>
    obtain ⟨k, s⟩ := m
    rw [readMembers] at done
    obtain ⟨t, first, done⟩ := exists_of_bind_eq_ok done
    obtain ⟨later, others, same⟩ := exists_of_bind_eq_ok done
    cases same
    rw [List.length_cons, List.length_cons, ih others]

variable {schema t : Json} {d : SchemaDocument}

/-- What is read of a document: its root, and the table of its definitions. -/
theorem read_document (done : SchemaDocument.read schema = .ok d) :
    read schema = .ok d.root ∧
      ((schema.get? "$defs" = none ∧ d.definitions = []) ∨
        ∃ table, schema.get? "$defs" = some (.object table) ∧
          readMembers table = .ok d.definitions) := by
  obtain ⟨root, read, done⟩ := exists_of_bind_eq_ok done
  split at done
  next defs found =>
    obtain ⟨definitions, table, same⟩ := exists_of_bind_eq_ok done
    cases same
    cases defs with
    | object members => exact ⟨read, .inr ⟨members, found, table⟩⟩
    | _ => cases table
  next found =>
    obtain ⟨definitions, none, same⟩ := exists_of_bind_eq_ok done
    cases none
    cases same
    exact ⟨read, .inl ⟨found, rfl⟩⟩

/-- A reference leads to what the definition with its name was read from. -/
theorem target_dialect (done : SchemaDocument.read schema = .ok d) {ref name : String}
    (named : definitionOf (.text ref) = some name) :
    (target dialect schema ref = none ∧ d.definitions.lookup name = none) ∨
      ∃ s t, target dialect schema ref = some s ∧ d.definitions.lookup name = some t ∧
        read s = .ok t := by
  have leads : target dialect schema ref =
      (schema.get? "$defs").bind fun defs => defs.get? name := by
    rw [target, show dialect.definition ref = some name from named, Option.bind_some]
  rw [leads]
  obtain ⟨-, ⟨absent, none⟩ | ⟨table, found, read⟩⟩ := read_document done
  · rw [absent, none]
    exact .inl ⟨rfl, rfl⟩
  · rw [found]
    exact lookup_readMembers read name

theorem isProper_of_target {ref : String} {s : Json} (proper : schema.IsProper)
    (found : target dialect schema ref = some s) : s.IsProper := by
  obtain ⟨name, -, found⟩ := Option.bind_eq_some_iff.1 found
  obtain ⟨defs, first, second⟩ := Option.bind_eq_some_iff.1 found
  exact (proper.get? first).get? second

/-- Patterns mean what the program takes them for. -/
theorem isMatch_dialect {source : String} {p : Pattern} (read : Pattern.ofText source = some p)
    (t : String) : dialect.isMatch source t = p.accepts t := by
  show (Pattern.ofText source).any _ = _
  rw [read, Option.any_some]

/-- **References say what the program takes them for**, however many of them are followed. -/
theorem agrees_follow (done : SchemaDocument.read schema = .ok d) (proper : schema.IsProper)
    (n : Nat) :
    Agrees ⟨dialect.isMatch, follow dialect schema (fun _ _ => true) n⟩ (d.knows n) := by
  refine ⟨fun _ _ => isMatch_dialect, ?_⟩
  induction n with
  | zero => exact fun _ _ _ _ => rfl
  | succ n ih =>
    intro ref name named v
    show follow dialect schema _ (n + 1) ref v = _
    rw [follow_succ, SchemaDocument.knows]
    rcases target_dialect done named with ⟨absent, none⟩ | ⟨s, t, leads, found, read⟩
    · rw [absent, none]
    · rw [leads, found]
      exact (holds_of_read ⟨fun _ _ => isMatch_dialect, ih⟩ s (isProper_of_target proper leads)
        read v).symm

/-- **A document finds no violation in the values that it accepts**, as many references being
followed as it follows. -/
theorem violations_eq_nil_iff_verdict (done : SchemaDocument.read schema = .ok d)
    (proper : schema.IsProper) (v : Json) :
    d.violations v = [] ↔
      verdict dialect schema (fun _ _ => true) (d.references v) v = true := by
  rw [SchemaDocument.violations_eq_nil_iff, verdict,
    holds_of_read (agrees_follow done proper _) schema proper (read_document done).1]

theorem length_definitions (done : SchemaDocument.read schema = .ok d) :
    d.definitions.length = definitionCount schema := by
  unfold definitionCount
  obtain ⟨-, ⟨absent, none⟩ | ⟨table, found, read⟩⟩ := read_document done
  · rw [absent, none]
    rfl
  · rw [found]
    exact length_of_readMembers read

/-- **The program finds no violation in the same values by equivalent schemas** with as many
definitions. -/
theorem violations_eq_nil_iff_of_equivalent {schema' : Json} {d' : SchemaDocument}
    (same : Equivalent schema' schema) (count : definitionCount schema' = definitionCount schema)
    (proper' : schema'.IsProper) (proper : schema.IsProper)
    (done' : SchemaDocument.read schema' = .ok d') (done : SchemaDocument.read schema = .ok d)
    (v : Json) : d'.violations v = [] ↔ d.violations v = [] := by
  have references : d'.references v = d.references v := by
    rw [SchemaDocument.references, SchemaDocument.references, length_definitions done,
      length_definitions done', count]
  rw [violations_eq_nil_iff_verdict done' proper', violations_eq_nil_iff_verdict done proper,
    same, references]

/-! ## §5. Schemas with the same meaning. -/

/-- Two schemas accept and refuse the same values, in every dialect; they say the same after any
number of references; and if the program reads both, it finds violations in the same values. -/
structure MeansSame (schema' schema : Json) : Prop where
  accepts : ∀ d v, Accepts d schema' v ↔ Accepts d schema v
  refuses : ∀ d v, Refuses d schema' v ↔ Refuses d schema v
  verdict : ∀ d beyond n v, verdict d schema' beyond n v = verdict d schema beyond n v
  violations : ∀ d' d, SchemaDocument.read schema' = .ok d' → SchemaDocument.read schema = .ok d →
    ∀ v, d'.violations v = [] ↔ d.violations v = []

theorem MeansSame.of_equivalent {schema' : Json} (same : Equivalent schema' schema)
    (count : definitionCount schema' = definitionCount schema) (proper' : schema'.IsProper)
    (proper : schema.IsProper) : MeansSame schema' schema where
  accepts := accepts_iff_of_equivalent same
  refuses := refuses_iff_of_equivalent same
  verdict := same
  violations _ _ := violations_eq_nil_iff_of_equivalent same count proper' proper

/-- **Rewriting by sound steps keeps the meaning of a schema.** -/
theorem MeansSame.of_isSound {object data : Members → Bool} {step : Members → Members}
    (sound : IsSound object data step) (n : Nat) (ordered : schema.IsOrdered)
    (fits : isSchema object data schema = true) : MeansSame (rewriteObjects step n schema) schema :=
  .of_equivalent (equivalent_rewriteObjects sound n ordered fits)
    (definitionCount_rewriteObjects sound n fits)
    (isOrdered_rewriteObjects sound ordered).isProper ordered.isProper

end LiteratureReview.JsonSchema
