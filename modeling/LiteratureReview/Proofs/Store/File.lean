/-
  LiteratureReview.Proofs.Store.File
  ──────────────────────────────────
  A database is read back from its file.

  The file is one printed JSON value, so this is the round trip of values;
  what is left to see is that every cell has a form a number of JSON can
  have (`IsStorable`), and that the tables are found again by name although
  their order is lost.
-/
import LiteratureReview.Proofs.Json.Ordering
import LiteratureReview.Proofs.Json.ReadBack
import LiteratureReview.Store.File

namespace LiteratureReview

open Json

namespace Cell

/-- A value that a file can hold: an integer of sixty-four bits, a finite
real, a text, or nothing. -/
def IsStorable (c : Cell) : Prop := c.encode.IsProper

theorem decode?_encode (c : Cell) : decode? c.encode = some c := by
  cases c <;> rfl

theorem depth_encode (c : Cell) : c.encode.depth = 0 := by
  cases c <;> rfl

/-- A cell has no members to sort. -/
theorem IsStorable.isOrdered {c : Cell} (h : c.IsStorable) : c.encode.IsOrdered := by
  cases c <;> exact h

end Cell

/-- The JSON form of a row. -/
abbrev Row.encode (row : Row) : Json := listOf Cell.encode row

theorem Row.decode?_encode (row : Row) : Row.decode? row.encode = some row := by
  show (row.map Cell.encode).mapM Cell.decode? = some row
  induction row with
  | nil => rfl
  | cons c rest ih =>
    rw [List.map_cons, List.mapM_cons, Cell.decode?_encode, ih]
    rfl

namespace Database

variable {db : Database}

/-- Every value in every table can be written to a file. -/
def IsStorable (db : Database) : Prop :=
  ∀ entity, ∀ row ∈ db.rows entity, ∀ c ∈ row, Cell.IsStorable c

/-- The JSON form of a table. -/
abbrev encodeTable (db : Database) (entity : EntityType) : Json :=
  listOf Row.encode (db.rows entity)

theorem decodeRows_encode (rows : List Row) :
    (rows.map Row.encode).mapM Row.decode? = some rows := by
  induction rows with
  | nil => rfl
  | cons row rest ih =>
    rw [List.map_cons, List.mapM_cons, Row.decode?_encode, ih]
    rfl

theorem isOrdered_encodeTable (storable : db.IsStorable) (entity : EntityType) :
    (db.encodeTable entity).IsOrdered := by
  refine isOrdered_list_iff.2 fun v mem => ?_
  obtain ⟨row, there, rfl⟩ := List.mem_map.1 mem
  refine isOrdered_list_iff.2 fun w mem => ?_
  obtain ⟨c, inside, rfl⟩ := List.mem_map.1 mem
  exact (storable entity row there c inside).isOrdered

theorem tableNames_distinct : (EntityType.all.map EntityType.tableName).Nodup := by decide

/-- The tables under their names. -/
def tables (db : Database) : List (String × Json) :=
  EntityType.all.map fun e => (e.tableName, db.encodeTable e)

theorem encode_eq (db : Database) : db.encode = .object db.tables := rfl

theorem tables_distinct (db : Database) : (db.tables.map (·.1)).Nodup := by
  rw [tables, List.map_map]
  exact tableNames_distinct

theorem isProper_encode (storable : db.IsStorable) : db.encode.IsProper := by
  refine isProper_object_iff.2 ⟨db.tables_distinct, fun m mem => ?_⟩
  obtain ⟨e, -, rfl⟩ := List.mem_map.1 mem
  exact (isOrdered_encodeTable storable e).isProper

theorem depth_encode_le (db : Database) : db.encode.depth ≤ 3 := by
  rw [encode, depth]
  refine Nat.succ_le_succ (depthMembers_le fun m mem => ?_)
  obtain ⟨e, -, rfl⟩ := List.mem_map.1 mem
  rw [listOf, depth]
  refine Nat.succ_le_succ (depthItems_le fun v mem => ?_)
  obtain ⟨row, -, rfl⟩ := List.mem_map.1 mem
  rw [listOf, depth]
  refine Nat.succ_le_succ (depthItems_le fun w mem => ?_)
  obtain ⟨c, -, rfl⟩ := List.mem_map.1 mem
  exact (Cell.depth_encode c).le

/-- Every table is found again by its name. -/
theorem get?_normalize_encode (storable : db.IsStorable) (entity : EntityType) :
    db.encode.normalize.get? entity.tableName = some (db.encodeTable entity) := by
  have there : db.tables.lookup entity.tableName = some (db.encodeTable entity) := by
    cases entity <;> rfl
  rw [encode_eq, Json.normalize, get?, lookup_normalizeMembers db.tables_distinct, there,
    Option.map_some, normalize_of_isOrdered (isOrdered_encodeTable storable entity)]

/-- Put the rows that a value holds for a table in their place. -/
def readTable (v : Json) (acc : Database) (entity : EntityType) : Option Database := do
  let rows ← (← (← v.get? entity.tableName).asList?).mapM Row.decode?
  return acc.withRows entity rows

theorem decode?_eq (v : Json) : decode? v = EntityType.all.foldlM (readTable v) {} := rfl

theorem readTable_encode (storable : db.IsStorable) (acc : Database) (entity : EntityType) :
    readTable db.encode.normalize acc entity = some (acc.withRows entity (db.rows entity)) := by
  have rows : (db.encodeTable entity).asList? = some ((db.rows entity).map Row.encode) := rfl
  rw [readTable, get?_normalize_encode storable entity, Option.bind_eq_bind, Option.bind_some,
    rows, Option.bind_eq_bind, Option.bind_some, decodeRows_encode]
  rfl

theorem decode?_normalize_encode (storable : db.IsStorable) :
    decode? db.encode.normalize = some db := by
  -- one table after the other is put in its place
  have folded : ∀ (es : List EntityType) (acc : Database),
      es.foldlM (readTable db.encode.normalize) acc =
        some (es.foldl (fun acc e => acc.withRows e (db.rows e)) acc) := by
    intro es
    induction es with
    | nil => exact fun acc => rfl
    | cons e es ih =>
      intro acc
      rw [List.foldlM_cons, readTable_encode storable, List.foldl_cons]
      exact ih _
  have all : EntityType.all.foldl (fun acc e => acc.withRows e (db.rows e)) {} = db := by
    cases db
    rfl
  rw [decode?_eq, folded, all]

/-- **A database is what its file holds.** -/
theorem ofText_toText (storable : db.IsStorable) : ofText db.toText = .ok db := by
  have shallow : db.encode.depth < Scan.levelLimit :=
    Nat.lt_of_le_of_lt db.depth_encode_le (by decide)
  have written : db.toText.isEmpty = false := by
    obtain ⟨x, more, front, -⟩ := Scan.startsValue_print (isProper_encode storable)
    rw [Bool.eq_false_iff]
    intro empty
    have : db.encode.print = "" := String.isEmpty_iff.1 empty
    rw [this] at front
    cases front
  rw [ofText, written, toText, parse_print (isProper_encode storable) shallow]
  simp only [Bool.false_eq_true, if_false, Except.toOption, Option.bind_some,
    decode?_normalize_encode storable]

end Database

end LiteratureReview
