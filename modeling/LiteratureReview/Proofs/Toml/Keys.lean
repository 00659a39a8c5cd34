/-
  LiteratureReview.Proofs.Toml.Keys
  ─────────────────────────────────
  No table of a document has a key twice.

  Tables grow key by key: a header opens one, a dotted key puts a value into
  one, and each change refuses a key that is taken or goes on below it
  (`keysOnce_insert`, `keysOnce_under`).  `Scanner.Yields s P` says that
  whatever the reader `s` answers has the property `P`; it composes along
  `>>=`, so that values (`yieldsOnce`), lines and documents
  (`keysOnce_of_parse`) are put together like their readers.
-/
import LiteratureReview.Proofs.Json.Proper
import LiteratureReview.Toml.Document

namespace LiteratureReview

/-! ## §1. Putting values under keys. -/

section Keys

variable {α : Type} {key : String} {a : α} {xs : List (String × α)}

/-- A value under a key, in its place if there is one. -/
def setKey (key : String) (a : α) : List (String × α) → List (String × α)
  | [] => [(key, a)]
  | (k, b) :: rest => if k = key then (k, a) :: rest else (k, b) :: setKey key a rest

theorem lookup_setKey (k : String) :
    (setKey key a xs).lookup k = if k = key then some a else xs.lookup k := by
  induction xs with
  | nil => rw [setKey, Json.lookup_cons_ite]
  | cons x rest ih =>
    obtain ⟨l, b⟩ := x
    rw [setKey]
    by_cases here : l = key
    · subst here
      rw [if_pos rfl, Json.lookup_cons_ite, Json.lookup_cons_ite]
      split <;> rfl
    · rw [if_neg here, Json.lookup_cons_ite, Json.lookup_cons_ite, ih]
      by_cases first : k = l
      · rw [if_pos first, if_pos first, if_neg (first ▸ here)]
      · rw [if_neg first, if_neg first]

theorem mem_setKey {x : String × α} (mem : x ∈ setKey key a xs) : x = (key, a) ∨ x ∈ xs := by
  induction xs with
  | nil => exact .inl (List.mem_singleton.1 mem)
  | cons y rest ih =>
    obtain ⟨l, b⟩ := y
    rw [setKey] at mem
    split at mem
    next here =>
      rcases List.mem_cons.1 mem with rfl | later
      · exact .inl (by rw [here])
      · exact .inr (List.mem_cons_of_mem _ later)
    next =>
      rcases List.mem_cons.1 mem with rfl | later
      · exact .inr List.mem_cons_self
      · exact (ih later).imp_right (List.mem_cons_of_mem _)

/-- Keys stay distinct when one is set. -/
theorem nodup_setKey (distinct : (xs.map (·.1)).Nodup) :
    ((setKey key a xs).map (·.1)).Nodup := by
  induction xs with
  | nil => exact List.nodup_singleton key
  | cons x rest ih =>
    obtain ⟨l, b⟩ := x
    obtain ⟨fresh, later⟩ := List.nodup_cons.1 distinct
    rw [setKey]
    split
    next => exact distinct
    next other =>
      refine List.nodup_cons.2 ⟨fun again => ?_, ih later⟩
      obtain ⟨y, mem, same⟩ := List.mem_map.1 again
      rcases mem_setKey mem with rfl | there
      · exact other same.symm
      · exact fresh (List.mem_map.2 ⟨y, there, same⟩)

end Keys

namespace Toml

/-! ## §2. Tables with every key once. -/

/-- No table has a key twice, as far as keys lead; what stands in arrays is left out. -/
inductive Value.KeysOnce : Value → Prop where
  | table {ms : List (String × Value)} (distinct : (ms.map (·.1)).Nodup)
      (each : ∀ m ∈ ms, KeysOnce m.2) : KeysOnce (.table ms)
  | plain {v : Value} (noTable : ∀ ms, v ≠ .table ms) : KeysOnce v

theorem keysOnce_array {vs : List Value} : (Value.array vs).KeysOnce := by
  refine .plain fun ms same => ?_
  cases same

/-- The same of a node of a table that is still being read. -/
inductive Node.KeysOnce : Node → Prop where
  | value {v : Value} (once : v.KeysOnce) : KeysOnce (.value v)
  | table {origin : Origin} {ms : List (String × Node)} (distinct : (ms.map (·.1)).Nodup)
      (each : ∀ m ∈ ms, KeysOnce m.2) : KeysOnce (.table origin ms)
  | tables {last : List (String × Node)} {before : List (List (String × Node))} :
      KeysOnce (.tables last before)

namespace Members

/-- The same of the members of a table. -/
structure KeysOnce (ms : Members) : Prop where
  distinct : (ms.map (·.1)).Nodup
  each : ∀ m ∈ ms, m.2.KeysOnce

variable {ms changed : Members} {key : String} {n : Node} {v : Value} {path : List String}
  {change : Members → Option Members} {here : Bool}

theorem keysOnce_nil : KeysOnce [] := ⟨List.nodup_nil, nofun⟩

theorem KeysOnce.node (once : ms.KeysOnce) (origin : Origin) : (Node.table origin ms).KeysOnce :=
  .table once.distinct once.each

theorem KeysOnce.of_node {origin : Origin} (once : (Node.table origin ms).KeysOnce) :
    ms.KeysOnce := by
  cases once with
  | table distinct each => exact ⟨distinct, each⟩

/-- What stands under a key of such a table is of the same kind. -/
theorem KeysOnce.get? (once : ms.KeysOnce) (found : ms.get? key = some n) : n.KeysOnce :=
  once.each _ (Json.mem_of_lookup found)

theorem set_eq_setKey (key : String) (n : Node) (ms : Members) :
    ms.set key n = setKey key n ms := by
  induction ms with
  | nil => rfl
  | cons m rest ih => rw [set, setKey, ih]

theorem KeysOnce.set (once : ms.KeysOnce) (new : n.KeysOnce) : (ms.set key n).KeysOnce := by
  rw [set_eq_setKey]
  refine ⟨nodup_setKey once.distinct, fun m mem => ?_⟩
  rcases mem_setKey mem with rfl | there
  · exact new
  · exact once.each m there

/-- A change of a table that a header leads to keeps every key once. -/
theorem keysOnce_under
    (keeps : ∀ {ms changed : Members}, ms.KeysOnce → change ms = some changed → changed.KeysOnce)
    (once : ms.KeysOnce) (done : ms.under change path = some changed) : changed.KeysOnce := by
  induction path generalizing ms changed with
  | nil => exact keeps once done
  | cons key rest ih =>
    rw [under] at done
    split at done
    next =>
      obtain ⟨inner, made, rfl⟩ := Option.map_eq_some_iff.1 done
      exact once.set ((ih keysOnce_nil made).node _)
    next origin m found =>
      obtain ⟨inner, made, rfl⟩ := Option.map_eq_some_iff.1 done
      exact once.set ((ih (.of_node (once.get? found)) made).node _)
    next =>
      obtain ⟨inner, -, rfl⟩ := Option.map_eq_some_iff.1 done
      exact once.set .tables
    next => cases done

theorem keysOnce_openTable (once : ms.KeysOnce) (done : ms.openTable key = some changed) :
    changed.KeysOnce := by
  rw [openTable] at done
  split at done
  next =>
    cases done
    exact once.set (keysOnce_nil.node _)
  next m found =>
    cases done
    exact once.set ((KeysOnce.of_node (once.get? found)).node _)
  next => cases done

theorem keysOnce_openElement (once : ms.KeysOnce) (done : ms.openElement key = some changed) :
    changed.KeysOnce := by
  rw [openElement] at done
  split at done
  next =>
    cases done
    exact once.set .tables
  next =>
    cases done
    exact once.set .tables
  next => cases done

/-- A value that is put at the end of a dotted key keeps every key once. -/
theorem keysOnce_insert (value : v.KeysOnce) (once : ms.KeysOnce)
    (done : ms.insert here v path = some changed) : changed.KeysOnce := by
  induction path generalizing ms changed here with
  | nil => cases done
  | cons key rest ih =>
    cases rest with
    | nil =>
      rw [insert] at done
      split at done
      next =>
        split at done
        · cases done
          exact once.set (.value value)
        · cases done
      next => cases done
    | cons next more =>
      rw [insert.eq_def] at done
      simp only at done
      split at done
      next =>
        obtain ⟨inner, made, rfl⟩ := Option.map_eq_some_iff.1 done
        exact once.set ((ih keysOnce_nil made).node _)
      next m found =>
        obtain ⟨inner, made, rfl⟩ := Option.map_eq_some_iff.1 done
        exact once.set ((ih (.of_node (once.get? found)) made).node _)
      next m found =>
        obtain ⟨inner, made, rfl⟩ := Option.map_eq_some_iff.1 done
        exact once.set ((ih (.of_node (once.get? found)) made).node _)
      next =>
        obtain ⟨inner, -, rfl⟩ := Option.map_eq_some_iff.1 done
        exact once.set .tables
      next => cases done
      next => cases done

theorem toValues_eq_map (ms : List (String × Node)) :
    toValues ms = ms.map fun m => (m.1, m.2.toValue) := by
  induction ms with
  | nil => rfl
  | cons m rest ih => rw [toValues, ih, List.map_cons]

end Members

/-- The value of such a node has every key once. -/
theorem Node.KeysOnce.toValue {n : Node} (once : n.KeysOnce) : n.toValue.KeysOnce := by
  induction once with
  | value once => exact once
  | table distinct _ ih =>
    rw [Node.toValue, Members.toValues_eq_map]
    refine .table (by rwa [List.map_map]) fun m mem => ?_
    obtain ⟨member, there, rfl⟩ := List.mem_map.1 mem
    exact ih member there
  | tables => exact .plain nofun

theorem Members.KeysOnce.toValues {ms : Members} (once : ms.KeysOnce) :
    (Value.table (Members.toValues ms)).KeysOnce :=
  (once.node .header).toValue

/-! ## §3. What readers answer. -/

namespace Scanner

variable {α β : Type} {P : α → Prop} {Q : β → Prop}

/-- Whatever the reader answers has the property. -/
def Yields (s : Scanner α) (P : α → Prop) : Prop :=
  ∀ cs a rest, s cs = some (a, rest) → P a

theorem yields_pure {a : α} (h : P a) : Yields (pure a) P := by
  rintro cs b rest ⟨⟩
  exact h

theorem yields_failure : Yields failure P := nofun

/-- What the second reader yields after anything the first one may answer. -/
theorem Yields.bind {s : Scanner α} {f : α → Scanner β} (first : s.Yields P)
    (second : ∀ a, P a → (f a).Yields Q) : Yields (s >>= f) Q := by
  intro cs b rest run
  replace run : (s cs >>= fun r => f r.1 r.2) = some (b, rest) := run
  obtain ⟨⟨a, after⟩, given, run⟩ := Option.bind_eq_some_iff.1 run
  exact second a (first cs a after given) after b rest run

/-- A reader whose answer does not matter. -/
theorem yields_then {s : Scanner α} {f : α → Scanner β} (second : ∀ a, (f a).Yields Q) :
    Yields (s >>= f) Q :=
  Yields.bind (P := fun _ => True) (fun _ _ _ _ => trivial) fun a _ => second a

theorem Yields.orElse {s t : Scanner α} (first : s.Yields P) (second : t.Yields P) :
    Yields (s <|> t) P := by
  intro cs a rest run
  replace run : (s cs <|> t cs) = some (a, rest) := run
  cases given : s cs with
  | some r =>
    rw [given] at run
    exact first cs a rest (given.trans run)
  | none =>
    rw [given] at run
    exact second cs a rest run

end Scanner

open Scanner

/-! ## §4. Values. -/

/-- A value that is neither an array nor a table has no keys. -/
theorem yields_plainValue : plainValue.Yields Value.KeysOnce := by
  have map {α : Type} (f : α → Value) (s : Scanner α) (noTable : ∀ a ms, f a ≠ .table ms) :
      Yields (f <$> s) Value.KeysOnce :=
    yields_then fun a => yields_pure (.plain (noTable a))
  have truth (b : Bool) : (Value.bool b).KeysOnce := .plain nofun
  exact (map _ _ nofun).orElse <| (yields_then fun _ => yields_pure (truth true)).orElse <|
    (yields_then fun _ => yields_pure (truth false)).orElse <| (map _ _ nofun).orElse <|
    (map _ _ nofun).orElse <| (map _ _ nofun).orElse (map _ _ nofun)

/-- An array, a table within a line, or anything else. -/
theorem yields_value {fuel : Nat}
    (inline : ∀ room, (inlineMembers fuel room).Yields Members.KeysOnce) (room : Nat) :
    (value (fuel + 1) room).Yields Value.KeysOnce := by
  unfold value
  refine yields_then fun front => ?_
  split
  next =>
    refine yields_then fun _ => ?_
    split
    · exact yields_then fun _ => yields_pure keysOnce_array
    · exact yields_failure
  next =>
    refine yields_then fun _ => ?_
    split
    next room => exact (inline room).bind fun ms once => yields_pure once.toValues
    next => exact yields_failure
  next => exact yields_plainValue

/-- A key and its value, and those behind a comma. -/
theorem yields_laterMembers {fuel : Nat} (values : ∀ room, (value fuel room).Yields Value.KeysOnce)
    (later : ∀ room done, Members.KeysOnce done →
      (laterMembers fuel room done).Yields Members.KeysOnce)
    (room : Nat) {done : Members} (once : done.KeysOnce) :
    (laterMembers (fuel + 1) room done).Yields Members.KeysOnce := by
  rw [laterMembers]
  refine yields_then fun path => yields_then fun _ => yields_then fun _ => ?_
  refine (values room).bind fun v plain => yields_then fun _ => ?_
  split
  next => exact yields_failure
  next done made =>
    have once := Members.keysOnce_insert plain once made
    refine yields_then fun more => ?_
    split
    · exact later room done once
    · exact yields_then fun _ => yields_pure once

/-- **Values have every key once**, tables within lines being made key by key. -/
theorem yieldsOnce (fuel : Nat) :
    (∀ room, (value fuel room).Yields Value.KeysOnce) ∧
      (∀ room, (inlineMembers fuel room).Yields Members.KeysOnce) ∧
        ∀ room done, Members.KeysOnce done →
          (laterMembers fuel room done).Yields Members.KeysOnce := by
  induction fuel with
  | zero =>
    refine ⟨fun room => ?_, fun room => ?_, fun room done _ => ?_⟩
    · rw [value]
      exact yields_failure
    · rw [inlineMembers]
      exact yields_failure
    · rw [laterMembers]
      exact yields_failure
  | succ fuel ih =>
    obtain ⟨values, inline, later⟩ := ih
    refine ⟨yields_value inline, fun room => ?_,
      fun room done once => yields_laterMembers values later room once⟩
    rw [inlineMembers]
    refine yields_then fun _ => yields_then fun ended => ?_
    split
    · exact yields_pure Members.keysOnce_nil
    · exact later room [] Members.keysOnce_nil

/-! ## §5. Documents. -/

/-- A change that has to be possible, of a draft's tables. -/
theorem yields_withRoot {d : Draft} {root : Option Members}
    (once : ∀ ms, root = some ms → ms.KeysOnce) :
    (d.withRoot root).Yields (·.root.KeysOnce) := by
  cases root with
  | none => exact yields_failure
  | some ms => exact yields_pure (once ms rfl)

/-- Each line keeps every key once. -/
theorem yields_lines (fuel : Nat) {d : Draft} (once : d.root.KeysOnce) :
    (lines fuel d).Yields (·.root.KeysOnce) := by
  induction fuel generalizing d with
  | zero => exact yields_failure
  | succ fuel ih =>
    have header : (tableHeader d).Yields (·.root.KeysOnce) := by
      refine yields_then fun _ => yields_then fun path => yields_then fun _ => yields_then fun _ =>
        yields_withRoot fun ms made => ?_
      exact Members.keysOnce_under Members.keysOnce_openTable once made
    have element : (elementHeader d).Yields (·.root.KeysOnce) := by
      refine yields_then fun _ => yields_then fun path => yields_then fun _ => yields_then fun _ =>
        yields_withRoot fun ms made => ?_
      exact Members.keysOnce_under Members.keysOnce_openElement once made
    have line : (keyLine fuel d).Yields (·.root.KeysOnce) := by
      refine yields_then fun path => yields_then fun _ => yields_then fun _ =>
        ((yieldsOnce fuel).1 _).bind fun v plain => yields_then fun _ =>
        yields_withRoot fun ms made => ?_
      exact Members.keysOnce_under (Members.keysOnce_insert plain) once made
    -- the end of the document, a comment, the end of a line, a header, or a key and its value
    rw [lines]
    refine yields_then fun _ => yields_then fun front => ?_
    split
    next => exact yields_pure once
    next => exact yields_then fun _ => ih once
    next => exact yields_then fun _ => ih once
    next => exact yields_then fun _ => ih once
    next =>
      refine yields_then fun ahead => ?_
      dsimp only
      split
      · exact element.bind fun d once => ih once
      · exact header.bind fun d once => ih once
    next => exact line.bind fun d once => ih once

/-- **In a document no table has a key twice.** -/
theorem keysOnce_of_parse {s : String} {ms : List (String × Value)} (parsed : parse s = some ms) :
    (Value.table ms).KeysOnce := by
  obtain ⟨d, run, rfl⟩ := Option.map_eq_some_iff.1 parsed
  obtain ⟨⟨_, rest⟩, given, rfl⟩ := Option.map_eq_some_iff.1 run
  exact (yields_lines _ Members.keysOnce_nil _ _ _ given).toValues

end Toml

end LiteratureReview
