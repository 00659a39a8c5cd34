/-
  LiteratureReview.Proofs.Store.Constraints
  ─────────────────────────────────────────
  When a row is added to a table.

  What a row needs by itself is that every column admits its value
  (`EntityType.Admits`); what it needs of the others is that no row has one
  of its keys (`Clash`) and that the rows it refers to are there.  A list of
  rows that brings its references along (`Grounded`), each of which has keys
  of its own, is written as a whole (`write_of_apart`).

    • `insert_ok_iff` — adding one row,
    • `write_eq_append` — what has been written when it went well,
    • `write_of_apart` — when it goes well.
-/
import LiteratureReview.Installation.Install
import Mathlib.Data.List.Forall2

namespace LiteratureReview

open Decimal

/-! ## §1. Values a column admits. -/

namespace Cell

/-- A value as a column of its own kind keeps it: a negative zero loses its
sign. -/
def settled : Cell → Cell
  | .real x => .real x.unsignedZero
  | c => c

@[simp] theorem settled_null : settled .null = .null := rfl

@[simp] theorem settled_int (i : Int) : settled (.int i) = .int i := rfl

@[simp] theorem settled_text (s : String) : settled (.text s) = .text s := rfl

theorem settled_eq_text_iff {v : Cell} {s : String} : v.settled = .text s ↔ v = .text s := by
  cases v with
  | text t => exact Iff.rfl
  | null | int i | real x => exact ⟨nofun, nofun⟩

/-- A value of the kind a column prefers, or none. -/
def IsOfKind (kind : Affinity) : Cell → Prop
  | .null => True
  | .int _ => kind = .integer
  | .real _ => kind = .real
  | .text _ => kind = .text

theorem convert_of_isOfKind {kind : Affinity} {v : Cell} (h : v.IsOfKind kind) :
    v.convert kind = v.settled := by
  cases v with
  | null => cases kind <;> rfl
  | int i =>
    cases h
    rfl
  | real x =>
    cases h
    rfl
  | text s =>
    cases h
    rfl

theorem agrees_text_iff {v : Cell} {s : String} : v.agrees (.text s) = true ↔ v = .text s := by
  cases v with
  | text t =>
    show (t == s) = true ↔ _
    rw [beq_iff_eq, Cell.text.injEq]
  | null | int i | real x => exact ⟨nofun, nofun⟩

theorem agrees_int_iff {i j : Int} : (Cell.int i).agrees (.int j) = true ↔ i = j := by
  show decide (i * 1 = j * 1) = true ↔ i = j
  rw [decide_eq_true_eq, Int.mul_one, Int.mul_one]

theorem agrees_self {v : Cell} (h : v ≠ .null) : v.agrees v = true := by
  cases v with
  | null => exact absurd rfl h
  | int i => exact agrees_int_iff.2 rfl
  | real x => exact decide_eq_true rfl
  | text s => exact agrees_text_iff.2 rfl

theorem agrees_comm (v w : Cell) : v.agrees w = w.agrees v := by
  cases v <;> cases w <;> simp [agrees, Bool.beq_comm, eq_comm]

end Cell

/-- A column admits a value: it may be missing, or is of the column's kind
and accepted. -/
structure Column.Admits (c : Column) (v : Cell) : Prop where
  given : v = .null → c.nullable = true
  kind : v.IsOfKind c.affinity
  check : ∀ k ∈ c.check, k.holds v.settled = true

namespace EntityType

variable {entity : EntityType} {row : Row}

/-- Every column of a table admits the value a row has in it. -/
def Admits (entity : EntityType) (row : Row) : Prop :=
  List.Forall₂ Column.Admits entity.layout.columns row

theorem convert_of_admits (h : entity.Admits row) : entity.convert row = row.map Cell.settled := by
  unfold Admits at h
  unfold convert
  generalize entity.layout.columns = columns at h ⊢
  induction h with
  | nil => rfl
  | cons head _ ih =>
    rw [List.zipWith_cons_cons, ih, Cell.convert_of_isOfKind head.kind, List.map_cons]

theorem cellAt_map_settled (column : String) (row : Row) :
    entity.cellAt column (row.map Cell.settled) = (entity.cellAt column row).settled := by
  unfold cellAt
  cases entity.layout.position? column with
  | none => rfl
  | some i =>
    simp only [List.getD_eq_getElem?_getD, List.getElem?_map]
    cases row[i]? <;> rfl

theorem settled_eq_null_iff {v : Cell} : v.settled = .null ↔ v = .null := by
  cases v with
  | null => exact Iff.rfl
  | int i | real x | text s => exact ⟨nofun, nofun⟩

/-- What a table keeps of an admitted row is the settled form of values that its
columns admit. -/
theorem Admits.at {c : Column} {v : Cell} (h : entity.Admits row)
    (mem : (c, v) ∈ entity.layout.columns.zip (row.map Cell.settled)) :
    ∃ given : Cell, v = given.settled ∧ c.Admits given := by
  rw [List.zip_map_right, List.mem_map] at mem
  obtain ⟨⟨_, given⟩, mem, same⟩ := mem
  obtain ⟨rfl, rfl⟩ := Prod.mk.inj same
  exact ⟨given, rfl, List.forall₂_zip h mem⟩

theorem findMissing_of_admits (h : entity.Admits row) :
    entity.findMissing (row.map Cell.settled) = none := by
  refine List.findSome?_eq_none_iff.2 fun (c, v) mem => ?_
  obtain ⟨given, rfl, admits⟩ := h.at mem
  show (if (!c.nullable && given.settled == .null) = true then _ else none) = none
  refine if_neg fun missing => ?_
  rw [Bool.and_eq_true, beq_iff_eq, settled_eq_null_iff] at missing
  rw [admits.given missing.2] at missing
  cases missing.1

theorem findUnmet_of_admits (h : entity.Admits row) :
    entity.findUnmet (row.map Cell.settled) = none := by
  refine List.findSome?_eq_none_iff.2 fun (c, v) mem => ?_
  obtain ⟨given, rfl, admits⟩ := h.at mem
  cases check : c.check with
  | none => simp only [check]
  | some k => simp only [check, admits.check k check, if_true]

/-! ## §2. Keys. -/

/-- Two rows of a table have one of its keys in common. -/
def Clash (entity : EntityType) (a b : Row) : Prop :=
  ∃ key ∈ entity.layout.keys, entity.sameKey key a b = true

theorem findTaken_eq_none_iff {others : List Row} :
    entity.findTaken others row = none ↔ ∀ r ∈ others, ¬entity.Clash row r := by
  simp only [findTaken, List.findSome?_eq_none_iff, Clash]
  constructor
  · rintro h r mem ⟨key, known, same⟩
    have := h key known
    rw [if_pos (List.any_eq_true.2 ⟨r, mem, same⟩)] at this
    cases this
  · intro h key known
    rw [if_neg]
    intro taken
    obtain ⟨r, mem, same⟩ := List.any_eq_true.1 taken
    exact h r mem ⟨key, known, same⟩

/-- A row that is admitted breaks no constraint but that of a key. -/
theorem findBroken_of_admits {others : List Row} (h : entity.Admits row) :
    entity.findBroken others (entity.convert row) =
      entity.findTaken others (row.map Cell.settled) := by
  rw [convert_of_admits h, findBroken, findMissing_of_admits h, findUnmet_of_admits h]
  rfl

/-- What a row breaks: a column of its table must not be null, a value does not meet a
condition, or a key is shared with another row. -/
theorem findBroken_cases {others : List Row} {broken : Constraint}
    (h : entity.findBroken others row = some broken) :
    (∃ c ∈ entity.layout.columns, broken = .notNull entity c.name) ∨
    (∃ c ∈ entity.layout.columns, ∃ k, c.check = some k ∧ broken = .check (k.text c.name)) ∨
    ∃ key ∈ entity.layout.keys, broken = .unique entity key ∧
      ∃ r ∈ others, entity.sameKey key row r = true := by
  rw [findBroken, Option.or_eq_some_iff, Option.or_eq_some_iff] at h
  rcases h with missing | ⟨_, unmet | ⟨_, taken⟩⟩
  · obtain ⟨⟨c, v⟩, mem, found⟩ := List.exists_of_findSome?_eq_some missing
    simp only at found
    split at found
    · cases found
      exact .inl ⟨c, (List.of_mem_zip mem).1, rfl⟩
    · cases found
  · obtain ⟨⟨c, v⟩, mem, found⟩ := List.exists_of_findSome?_eq_some unmet
    simp only at found
    split at found
    next k check =>
      split at found
      · cases found
      · cases found
        exact .inr (.inl ⟨c, (List.of_mem_zip mem).1, k, check, rfl⟩)
    next => cases found
  · obtain ⟨key, known, found⟩ := List.exists_of_findSome?_eq_some taken
    split at found
    next shared =>
      cases found
      exact .inr (.inr ⟨key, known, rfl, List.any_eq_true.1 shared⟩)
    next => cases found

/-- Every table has the id in its first column. -/
theorem cellAt_id (entity : EntityType) (row : Row) : entity.cellAt "id" row = row.cell 0 := by
  cases entity <;> rfl

theorem sameKey_singleton {column : String} {a b : Row} :
    entity.sameKey [column] a b = (entity.cellAt column a).agrees (entity.cellAt column b) := by
  rw [sameKey, List.all_cons, List.all_nil, Bool.and_true]

/-- Rows with a key in common agree in every column of it. -/
theorem agrees_of_sameKey {key : List String} {column : String} {a b : Row}
    (h : entity.sameKey key a b = true) (mem : column ∈ key) :
    (entity.cellAt column a).agrees (entity.cellAt column b) = true :=
  List.all_eq_true.1 h column mem

/-! ## §3. References. -/

/-- The rows of other tables that a row refers to: their tables and ids. -/
def references (entity : EntityType) (row : Row) : List (EntityType × Cell) :=
  (entity.layout.columns.zip row).filterMap fun (c, v) => c.owner.map fun owner => (owner, v)

theorem mem_references {ref : EntityType × Cell} :
    ref ∈ entity.references row ↔
      ∃ c, (c, ref.2) ∈ entity.layout.columns.zip row ∧ c.owner = some ref.1 := by
  unfold references
  rw [List.mem_filterMap]
  constructor
  · rintro ⟨⟨c, v⟩, mem, h⟩
    obtain ⟨owner, owned, rfl⟩ := Option.map_eq_some_iff.1 h
    exact ⟨c, mem, owned⟩
  · rintro ⟨c, mem, owned⟩
    exact ⟨(c, ref.2), mem, by simp [owned]⟩

theorem mem_references_settled {ref : EntityType × Cell} :
    ref ∈ entity.references (row.map Cell.settled) ↔
      ∃ given : Cell, ref.2 = given.settled ∧ (ref.1, given) ∈ entity.references row := by
  simp only [mem_references, List.zip_map_right, List.mem_map]
  constructor
  · intro ⟨c, ⟨⟨_, given⟩, mem, same⟩, owned⟩
    obtain ⟨rfl, settled⟩ := Prod.mk.inj same
    exact ⟨given, settled.symm, _, mem, owned⟩
  · intro ⟨given, settled, c, mem, owned⟩
    exact ⟨c, ⟨(c, given), mem, by rw [settled]; rfl⟩, owned⟩

theorem referencesHold_iff {db : Database} :
    db.referencesHold entity row = true ↔
      ∀ ref ∈ entity.references row, ref.2 = .null ∨ db.hasId ref.1 ref.2 = true := by
  unfold Database.referencesHold
  rw [List.all_eq_true]
  constructor
  · intro h ref mem
    obtain ⟨c, mem, owned⟩ := mem_references.1 mem
    simpa only [owned, Bool.or_eq_true, beq_iff_eq] using h _ mem
  · rintro h ⟨c, v⟩ mem
    cases owned : c.owner with
    | none => simp only [owned]
    | some owner =>
      have := h (owner, v) (mem_references.2 ⟨c, mem, owned⟩)
      simpa only [owned, Bool.or_eq_true, beq_iff_eq] using this

/-- The columns of a table have names of their own. -/
theorem names_nodup (entity : EntityType) : (entity.layout.columns.map (·.name)).Nodup := by
  cases entity <;> decide

/-- The value in a column stands in the row where the column stands in the
layout. -/
theorem cellAt_mem_zip {c : Column} (mem : c ∈ entity.layout.columns)
    (whole : row.length = entity.layout.columns.length) :
    (c, entity.cellAt c.name row) ∈ entity.layout.columns.zip row := by
  obtain ⟨i, inside, rfl⟩ := List.getElem_of_mem mem
  have place : entity.layout.position? (entity.layout.columns[i]).name = some i := by
    refine List.findIdx?_eq_some_iff_getElem.2 ⟨inside, by simp, fun j before same => ?_⟩
    have here : i < (entity.layout.columns.map (·.name)).length := by simpa using inside
    have there : j < (entity.layout.columns.map (·.name)).length := Nat.lt_trans before here
    have : (entity.layout.columns.map (·.name))[j] = (entity.layout.columns.map (·.name))[i] := by
      simpa using same
    have := (List.getElem_inj entity.names_nodup).1 this
    omega
  unfold cellAt
  rw [place, List.mem_iff_getElem]
  exact ⟨i, by simp [inside, whole], by simp [whole ▸ inside]⟩

end EntityType

/-! ## §4. Adding rows. -/

namespace Database

variable {db after : Database} {entity : EntityType} {row : Row}

/-- The database with a row behind those of a table. -/
def add (db : Database) (entity : EntityType) (row : Row) : Database :=
  db.withRows entity (db.rows entity ++ [entity.convert row])

theorem rows_withRows (db : Database) (entity other : EntityType) (rows : List Row) :
    (db.withRows entity rows).rows other = if other = entity then rows else db.rows other := by
  cases entity <;> cases other <;> rfl

theorem rows_add (db : Database) (entity other : EntityType) (row : Row) :
    (db.add entity row).rows other =
      db.rows other ++ if other = entity then [entity.convert row] else [] := by
  rw [add, rows_withRows]
  split
  next same => rw [same]
  next => rw [List.append_nil]

/-- Adding a row goes well when it breaks no constraint and refers to rows
that are there. -/
theorem insert_ok_iff :
    db.insert entity row = .ok after ↔
      entity.findBroken (db.rows entity) (entity.convert row) = none ∧
        (db.add entity row).referencesHold entity (entity.convert row) = true ∧
          after = db.add entity row := by
  unfold insert
  simp only
  cases entity.findBroken (db.rows entity) (entity.convert row) with
  | some broken => simp
  | none =>
    simp only [true_and]
    change (if (db.add entity row).referencesHold entity (entity.convert row) = true then
      Except.ok (db.add entity row) else _) = _ ↔ _
    split
    next holds => simp [holds, eq_comm]
    next fails => simp [fails]

/-- A row that is not added breaks a constraint, or refers to a row that is not there. -/
theorem insert_error {broken : Constraint} (h : db.insert entity row = .error broken) :
    entity.findBroken (db.rows entity) (entity.convert row) = some broken ∨
      broken = .reference := by
  unfold insert at h
  cases found : entity.findBroken (db.rows entity) (entity.convert row) with
  | some other =>
    simp only [found] at h
    cases h
    exact .inl rfl
  | none =>
    simp only [found] at h
    split at h
    · cases h
    · cases h
      exact .inr rfl

/-- The values of a row that is added are accepted by the columns. -/
theorem holds_of_insert {c : Column} {v : Cell} {k : Check} (h : db.insert entity row = .ok after)
    (mem : (c, v) ∈ entity.layout.columns.zip (entity.convert row)) (check : c.check = some k) :
    k.holds v = true := by
  have unbroken := (insert_ok_iff.1 h).1
  rw [EntityType.findBroken, Option.or_eq_none_iff, Option.or_eq_none_iff] at unbroken
  have met := List.findSome?_eq_none_iff.1 unbroken.2.1 _ mem
  simpa [check] using met

/-- The rows of a list that belong to a table, as the table keeps them. -/
def written (entity : EntityType) (writes : List (EntityType × Row)) : List Row :=
  (writes.filter fun w => w.1 = entity).map fun w => entity.convert w.2

/-- The database with some rows behind those of their tables. -/
def append (db : Database) : List (EntityType × Row) → Database
  | [] => db
  | (entity, row) :: rest => (db.add entity row).append rest

theorem written_cons (other : EntityType) (w : EntityType × Row)
    (writes : List (EntityType × Row)) :
    written other (w :: writes) =
      (if other = w.1 then [w.1.convert w.2] else []) ++ written other writes := by
  unfold written
  by_cases h : w.1 = other
  · subst h
    simp
  · simp [h, Ne.symm h]

theorem rows_append (db : Database) (other : EntityType) (writes : List (EntityType × Row)) :
    (db.append writes).rows other = db.rows other ++ written other writes := by
  induction writes generalizing db with
  | nil => rw [append, written, List.filter_nil, List.map_nil, List.append_nil]
  | cons w rest ih =>
    obtain ⟨entity, row⟩ := w
    rw [append, ih, rows_add, written_cons, List.append_assoc]

/-- A transaction that goes well adds its first row, and then the others. -/
theorem write_cons_ok {w : EntityType × Row} {rest : List (EntityType × Row)}
    (h : db.write (w :: rest) = .ok after) :
    ∃ next, db.insert w.1 w.2 = .ok next ∧ next.write rest = .ok after := by
  rw [write] at h
  cases step : db.insert w.1 w.2 with
  | error broken =>
    rw [step] at h
    cases h
  | ok next =>
    rw [step] at h
    exact ⟨next, rfl, h⟩

/-- A transaction goes wrong at its first row, or later. -/
theorem write_cons_error {w : EntityType × Row} {rest : List (EntityType × Row)}
    {broken : Constraint} (h : db.write (w :: rest) = .error broken) :
    db.insert w.1 w.2 = .error broken ∨
      ∃ next, db.insert w.1 w.2 = .ok next ∧ next.write rest = .error broken := by
  rw [write] at h
  cases step : db.insert w.1 w.2 with
  | error first =>
    rw [step] at h
    cases h
    exact .inl rfl
  | ok next =>
    rw [step] at h
    exact .inr ⟨next, rfl, h⟩

/-- A transaction that goes well has added every row. -/
theorem write_eq_append {writes : List (EntityType × Row)} (h : db.write writes = .ok after) :
    after = db.append writes := by
  induction writes generalizing db with
  | nil =>
    cases h
    rfl
  | cons w rest ih =>
    obtain ⟨entity, row⟩ := w
    obtain ⟨next, step, behind⟩ := write_cons_ok h
    rw [append, ← (insert_ok_iff.1 step).2.2]
    exact ih behind

/-- A transaction that goes wrong has added the rows in front of one that breaks
a constraint, or refers to a row that is not there. -/
theorem write_error {writes : List (EntityType × Row)} {broken : Constraint}
    (h : db.write writes = .error broken) :
    ∃ front w back, writes = front ++ w :: back ∧
      (w.1.findBroken ((db.append front).rows w.1) (w.1.convert w.2) = some broken ∨
        broken = .reference) := by
  induction writes generalizing db with
  | nil => cases h
  | cons w rest ih =>
    rcases write_cons_error h with first | ⟨next, step, later⟩
    · exact ⟨[], w, rest, rfl, insert_error first⟩
    · obtain ⟨front, x, back, rfl, reason⟩ := ih later
      rw [(insert_ok_iff.1 step).2.2] at reason
      exact ⟨w :: front, x, back, rfl, reason⟩

/-! ## §5. Rows that bring their references along. -/

/-- The id of a row to be written, with its table. -/
def identify (w : EntityType × Row) : EntityType × Cell := (w.1, w.1.cellAt "id" w.2)

/-- Every row refers to rows with ids known before, or to rows in front of it. -/
def Grounded (known : List (EntityType × Cell)) : List (EntityType × Row) → Prop
  | [] => True
  | w :: rest =>
    (∀ ref ∈ w.1.references w.2, ref.2 = .null ∨ ref ∈ known) ∧
      Grounded (identify w :: known) rest

theorem Grounded.mono {known more : List (EntityType × Cell)} {writes : List (EntityType × Row)}
    (h : Grounded known writes) (sub : known ⊆ more) : Grounded more writes := by
  induction writes generalizing known more with
  | nil => trivial
  | cons w rest ih =>
    refine ⟨fun ref mem => (h.1 ref mem).imp_right (@sub ref), ih h.2 ?_⟩
    exact List.cons_subset_cons _ sub

theorem Grounded.append {known : List (EntityType × Cell)} {front back : List (EntityType × Row)}
    (left : Grounded known front) (right : Grounded (front.map identify ++ known) back) :
    Grounded known (front ++ back) := by
  induction front generalizing known with
  | nil => exact right
  | cons w rest ih =>
    refine ⟨left.1, ih left.2 (right.mono ?_)⟩
    intro ref mem
    simp only [List.map_cons, List.cons_append, List.mem_cons, List.mem_append] at mem ⊢
    tauto

/-- Rows that refer to what is known, or to rows at places in front of them. -/
theorem Grounded.of_earlier {known : List (EntityType × Cell)} {writes : List (EntityType × Row)}
    (h : ∀ (i : Nat) (w : EntityType × Row), writes[i]? = some w → ∀ ref ∈ w.1.references w.2,
      ref.2 = .null ∨ ref ∈ known ∨ ∃ j < i, writes[j]?.map identify = some ref) :
    Grounded known writes := by
  induction writes generalizing known with
  | nil => trivial
  | cons first rest ih =>
    constructor
    · intro ref mem
      rcases h 0 first rfl ref mem with missing | there | ⟨j, before, _⟩
      · exact .inl missing
      · exact .inr there
      · cases before
    · refine ih fun i w place ref mem => ?_
      rcases h (i + 1) w place ref mem with missing | there | ⟨j, before, same⟩
      · exact .inl missing
      · exact .inr (.inl (List.mem_cons_of_mem _ there))
      · cases j with
        | zero =>
          cases same
          exact .inr (.inl List.mem_cons_self)
        | succ j => exact .inr (.inr ⟨j, Nat.lt_of_succ_lt_succ before, same⟩)

/-- Rows that refer to nothing but what is known. -/
theorem Grounded.of_known {known : List (EntityType × Cell)} {writes : List (EntityType × Row)}
    (h : ∀ w ∈ writes, ∀ ref ∈ w.1.references w.2, ref ∈ known) : Grounded known writes :=
  .of_earlier fun _ _ place ref mem =>
    .inr (.inl (h _ (List.mem_of_getElem? place) ref mem))

/-- What a row refers to is known before or among the rows. -/
theorem Grounded.mem {known : List (EntityType × Cell)} {writes : List (EntityType × Row)}
    (h : Grounded known writes) {w : EntityType × Row} (mem : w ∈ writes)
    {ref : EntityType × Cell} (refers : ref ∈ w.1.references w.2) :
    ref.2 = .null ∨ ref ∈ writes.map identify ++ known := by
  induction writes generalizing known with
  | nil => cases mem
  | cons first rest ih =>
    cases mem with
    | head => exact (h.1 ref refers).imp_right fun there => List.mem_append_right _ there
    | tail _ mem =>
      refine (ih h.2 mem).imp_right fun there => ?_
      simp only [List.map_cons, List.cons_append, List.mem_cons, List.mem_append] at there ⊢
      tauto

theorem hasId_iff {id : Cell} :
    db.hasId entity id = true ↔
      ∃ row ∈ db.rows entity, (entity.cellAt "id" row).agrees id = true :=
  List.any_eq_true

/-- A database keeps the ids it has. -/
theorem hasId_add {other : EntityType} {id : Cell} (h : db.hasId other id = true) :
    (db.add entity row).hasId other id = true := by
  obtain ⟨r, mem, same⟩ := hasId_iff.1 h
  exact hasId_iff.2 ⟨r, by rw [rows_add]; exact List.mem_append_left _ mem, same⟩

/-- An admitted row is added as it is kept, when no row has one of its keys and what it
refers to is there. -/
theorem insert_of_admits (admits : entity.Admits row)
    (apart : ∀ r ∈ db.rows entity, ¬entity.Clash (row.map Cell.settled) r)
    (holds : ∀ ref ∈ entity.references row, ref.2 = .null ∨
      (db.add entity row).hasId ref.1 ref.2.settled = true) :
    db.insert entity row = .ok (db.add entity row) := by
  refine insert_ok_iff.2 ⟨?_, ?_, rfl⟩
  · rw [EntityType.findBroken_of_admits admits, EntityType.findTaken_eq_none_iff]
    exact apart
  · rw [EntityType.convert_of_admits admits, EntityType.referencesHold_iff]
    intro ref mem
    obtain ⟨given, settled, mem⟩ := EntityType.mem_references_settled.1 mem
    rw [settled, EntityType.settled_eq_null_iff]
    exact holds _ mem

/-- A row that has been added is found by its id. -/
theorem hasId_add_self (admits : entity.Admits row) (given : entity.cellAt "id" row ≠ .null) :
    (db.add entity row).hasId entity (entity.cellAt "id" row).settled = true := by
  refine hasId_iff.2 ⟨entity.convert row, by simp [rows_add], ?_⟩
  rw [EntityType.convert_of_admits admits, EntityType.cellAt_map_settled]
  exact Cell.agrees_self (mt EntityType.settled_eq_null_iff.1 given)

/-- A list of admitted rows that bring their references along is written as a
whole when no row has a key of a row already there, or of a row in front
of it. -/
theorem write_of_apart {known : List (EntityType × Cell)} {writes : List (EntityType × Row)}
    (admitted : ∀ w ∈ writes, w.1.Admits w.2) (grounded : Grounded known writes)
    (there : ∀ ref ∈ known, ref.2 = .null ∨ db.hasId ref.1 ref.2.settled = true)
    (outside : ∀ w ∈ writes, ∀ r ∈ db.rows w.1, ¬w.1.Clash (w.2.map Cell.settled) r)
    (inside : writes.Pairwise fun a b =>
      a.1 = b.1 → ¬b.1.Clash (b.2.map Cell.settled) (a.2.map Cell.settled)) :
    db.write writes = .ok (db.append writes) := by
  induction writes generalizing db known with
  | nil => rfl
  | cons w rest ih =>
    obtain ⟨entity, row⟩ := w
    have admits : entity.Admits row := admitted _ List.mem_cons_self
    obtain ⟨apart, inside⟩ := List.pairwise_cons.1 inside
    have step : db.insert entity row = .ok (db.add entity row) :=
      insert_of_admits admits (outside _ List.mem_cons_self) fun ref mem =>
        (grounded.1 _ mem).elim .inl fun known => (there _ known).imp_right hasId_add
    rw [write, step]
    refine ih (fun w mem => admitted w (List.mem_cons_of_mem _ mem)) grounded.2 ?_ ?_ inside
    -- the ids known to the rest are those known so far and that of the row
    · intro ref mem
      cases mem with
      | tail _ mem => exact (there ref mem).imp_right hasId_add
      | head => exact or_iff_not_imp_left.2 (hasId_add_self admits)
    · intro w mem r stored
      rw [rows_add, List.mem_append] at stored
      rcases stored with old | new
      · exact outside w (List.mem_cons_of_mem _ mem) r old
      · split at new
        next same =>
          rw [List.mem_singleton.1 new, EntityType.convert_of_admits admits, same]
          exact same ▸ apart w mem same.symm
        next => cases new

/-! ## §6. Rows with ids of their own. -/

/-- Every row of a database is as long as it has to be, and the rows it refers
to are there. -/
structure Intact (db : Database) : Prop where
  whole : ∀ entity, ∀ row ∈ db.rows entity, row.length = entity.layout.columns.length
  references : ∀ entity, ∀ row ∈ db.rows entity, db.referencesHold entity row = true

/-- A key is the id, the label of a project, or has the id of an owner in it. -/
theorem key_cases (entity : EntityType) :
    ∀ key ∈ entity.layout.keys, key = ["id"] ∨ entity = .project ∧ key = ["label"] ∨
      ∃ c ∈ entity.layout.columns, c.name ∈ key ∧ c.owner.isSome = true := by
  cases entity <;> decide

/-- Rows whose ids are new have none of the keys of the rows that are there,
unless it is the label of a project. -/
theorem outside_of_fresh {writes : List (EntityType × Row)} (intact : db.Intact)
    (admitted : ∀ w ∈ writes, w.1.Admits w.2) (grounded : Grounded [] writes)
    (named : ∀ w ∈ writes, ∃ s, w.1.cellAt "id" w.2 = .text s)
    (fresh : ∀ w ∈ writes, db.hasId w.1 (w.1.cellAt "id" w.2) = false)
    (free : ∀ w ∈ writes, w.1 = .project →
      ∀ r ∈ db.rows w.1, w.1.sameKey ["label"] (w.2.map Cell.settled) r = false) :
    ∀ w ∈ writes, ∀ r ∈ db.rows w.1, ¬w.1.Clash (w.2.map Cell.settled) r := by
  rintro w mem r stored ⟨key, known, same⟩
  rcases key_cases w.1 key known with rfl | ⟨project, rfl⟩ | ⟨c, column, inKey, owned⟩
  · obtain ⟨s, id⟩ := named w mem
    have agrees := EntityType.agrees_of_sameKey same (List.mem_singleton_self "id")
    rw [EntityType.cellAt_map_settled, id, Cell.settled_text, Cell.agrees_comm] at agrees
    have taken : db.hasId w.1 (.text s) = true := hasId_iff.2 ⟨r, stored, agrees⟩
    rw [← id, fresh w mem] at taken
    cases taken
  · rw [free w mem project r stored] at same
    cases same
  -- the owner of the new row is new, that of the old row is not
  · obtain ⟨owner, owned⟩ := Option.isSome_iff_exists.1 owned
    have agrees := EntityType.agrees_of_sameKey same inKey
    have length := (admitted w mem).length_eq
    have ref : (owner, w.1.cellAt c.name w.2) ∈ w.1.references w.2 :=
      EntityType.mem_references.2 ⟨c, EntityType.cellAt_mem_zip column length.symm, owned⟩
    have oldRef : (owner, w.1.cellAt c.name r) ∈ w.1.references r :=
      EntityType.mem_references.2
        ⟨c, EntityType.cellAt_mem_zip column (intact.whole _ r stored), owned⟩
    rw [EntityType.cellAt_map_settled] at agrees
    rcases grounded.mem mem ref with missing | new
    · rw [show w.1.cellAt c.name w.2 = .null from missing] at agrees
      simp [Cell.agrees] at agrees
    · rw [List.append_nil] at new
      obtain ⟨other, otherMem, identified⟩ := List.mem_map.1 new
      obtain ⟨s, id⟩ := named other otherMem
      obtain ⟨rfl, value⟩ := Prod.mk.inj identified
      rw [← value, id, Cell.settled_text, Cell.agrees_comm, Cell.agrees_text_iff] at agrees
      rw [agrees] at oldRef
      have := EntityType.referencesHold_iff.1 (intact.references _ r stored) _ oldRef
      rcases this with missing | taken
      · cases missing
      · rw [← id, fresh other otherMem] at taken
        cases taken

end Database

end LiteratureReview
