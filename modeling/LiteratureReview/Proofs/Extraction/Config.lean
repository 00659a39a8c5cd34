/-
  LiteratureReview.Proofs.Extraction.Config
  ─────────────────────────────────────────
  The settings of an extraction field are read back from their text.

  As with categories, all that may stand in the way is the value a field
  starts with (`FieldConfig.IsWritable`); the fields of a forest that can be
  written have settings that can be (`isWritable_of_mem_flatten`).
-/
import LiteratureReview.Extraction.Flatten
import LiteratureReview.Proofs.Protocol.Categories

namespace LiteratureReview

open Json Fields Shape

namespace FieldConfig

variable {c : FieldConfig} {at_ : Standing} {limit : Nat}

/-- Settings with an initial value that can be written: it is proper, with its members
in order, other than null, and not too deep. -/
def IsWritable (limit : Nat) (c : FieldConfig) : Prop :=
  ∀ v, c.initialValue = some v → v.IsOrdered ∧ v ≠ .null ∧ v.depth < limit

def table (c : FieldConfig) : List (String × Option Json) :=
  [("values", c.values.map (listOf .text)), ("dynamic_subtype", c.dynamicSubtype.map .text),
   ("initial_values", c.initialValues.map (listOf .text)),
   ("reference_name", c.referenceName.map .text), ("depends_on", c.dependsOn.map .text),
   ("pattern", c.pattern.map .text), ("max_char", c.maxChar.map Json.u32),
   ("initial_value", c.initialValue.map id), ("numberOfValues", c.numberOfValues.map Json.i64),
   ("mandatory", some (.bool c.mandatory)), ("parent", c.parent.map .text)]

theorem encode_eq (c : FieldConfig) : c.encode = .object (given c.table) := by
  simp only [encode, member_eq_given, memberIf_eq_given, ← given_append]
  rfl

theorem distinct (c : FieldConfig) : (c.table.map (·.1)).Nodup :=
  (by decide : type.fields.Nodup)

theorem decode_encode (writable : c.IsWritable limit) : decode at_ c.encode = .ok c := by
  have keys := c.distinct
  have texts : ∀ names : List String,
      Decoder.list Decoder.text at_ (listOf .text names) = .ok names :=
    fun names => Decoder.list_listOf fun s _ => rfl
  -- the count is read as an integer first
  have count : c.table.lookup "numberOfValues" =
      some ((c.numberOfValues.map Int64.toInt).map fun i => .number (.int i)) := by
    rw [Option.map_map]
    rfl
  have back : (c.numberOfValues.map Int64.toInt).map Int64.ofInt = c.numberOfValues := by
    cases c.numberOfValues with
    | none => rfl
    | some i => exact congrArg some (Int64.ofInt_toInt i)
  have read : ∀ i, c.numberOfValues.map Int64.toInt = some i →
      Json.number (.int i) ≠ .null ∧ Decoder.i64 at_ (.number (.int i)) = .ok i := by
    intro i there
    obtain ⟨n, _, rfl⟩ := Option.map_eq_some_iff.1 there
    exact ⟨nofun, Decoder.i64_encode n⟩
  rw [encode_eq]
  unfold decode RecordType.decode
  simp only
  rw [optional_given "values" keys rfl fun names _ => ⟨nofun, texts names⟩,
    optional_given "dynamic_subtype" keys rfl fun s _ => ⟨nofun, rfl⟩,
    optional_given "initial_values" keys rfl fun names _ => ⟨nofun, texts names⟩,
    optional_given "reference_name" keys rfl fun s _ => ⟨nofun, rfl⟩,
    optional_given "depends_on" keys rfl fun s _ => ⟨nofun, rfl⟩,
    optional_given "pattern" keys rfl fun s _ => ⟨nofun, rfl⟩,
    optional_given "max_char" keys rfl fun n _ => ⟨nofun, Decoder.u32_encode n⟩,
    optional_given "initial_value" keys rfl fun v there =>
      ⟨(writable v there).2.1, congrArg Except.ok (normalize_of_isOrdered (writable v there).1)⟩,
    optional_given "numberOfValues" keys count read,
    required_given "mandatory" keys (v := .bool c.mandatory) rfl rfl,
    optional_given "parent" keys rfl fun s _ => ⟨nofun, rfl⟩]
  show Except.ok ({ c with numberOfValues :=
    (c.numberOfValues.map Int64.toInt).map Int64.ofInt } : FieldConfig) = _
  rw [back]

theorem holds_encode (writable : c.IsWritable limit) : shape.Holds c.encode := by
  have texts : ∀ names : List String, (Shape.list .string).Holds (listOf .text names) :=
    fun names => holds_listOf fun s _ => holds_string s
  rw [encode_eq]
  exact holds_given c.distinct <|
    .cons (fills_optional _ rfl fun names _ => ⟨nofun, texts names⟩) <|
    .cons (fills_optional _ rfl fun s _ => ⟨nofun, holds_string s⟩) <|
    .cons (fills_optional _ rfl fun names _ => ⟨nofun, texts names⟩) <|
    .cons (fills_optional _ rfl fun s _ => ⟨nofun, holds_string s⟩) <|
    .cons (fills_optional _ rfl fun s _ => ⟨nofun, holds_string s⟩) <|
    .cons (fills_optional _ rfl fun s _ => ⟨nofun, holds_string s⟩) <|
    .cons (fills_optional _ rfl fun n _ => ⟨nofun, holds_u32 n⟩) <|
    .cons (fills_optional _ rfl fun v there =>
      ⟨(writable v there).2.1, holds_any (writable v there).1.isProper⟩) <|
    .cons (fills_optional _ rfl fun i _ => ⟨nofun, holds_i64 i⟩) <|
    .cons (fills_required _ (holds_bool c.mandatory)) <|
    .cons (fills_optional _ rfl fun s _ => ⟨nofun, holds_string s⟩) .nil

theorem depth_encode_le (some : 2 ≤ limit) (writable : c.IsWritable limit) :
    c.encode.depth ≤ limit := by
  have texts : ∀ names : List String, (listOf .text names).depth ≤ 1 :=
    fun names => Json.depth_listOf_le fun s _ => Nat.le_refl 0
  obtain ⟨limit, rfl⟩ : ∃ n, limit = n + 1 := ⟨limit - 1, by omega⟩
  rw [encode_eq]
  refine depth_given_le fun field mem => ?_
  simp only [table, List.mem_cons, List.not_mem_nil, or_false] at mem
  rcases mem with rfl | rfl | rfl | rfl | rfl | rfl | rfl | rfl | rfl | rfl | rfl
  · exact meets_optional _ fun names _ => (texts names).trans (by omega)
  · exact meets_optional _ fun s _ => Nat.zero_le limit
  · exact meets_optional _ fun names _ => (texts names).trans (by omega)
  · exact meets_optional _ fun s _ => Nat.zero_le limit
  · exact meets_optional _ fun s _ => Nat.zero_le limit
  · exact meets_optional _ fun s _ => Nat.zero_le limit
  · exact meets_optional _ fun n _ => Nat.zero_le limit
  · exact meets_optional _ fun v there => Nat.le_of_lt_succ (writable v there).2.2
  · exact meets_optional _ fun i _ => Nat.zero_le limit
  · exact meets_required _ (Nat.zero_le limit)
  · exact meets_optional _ fun s _ => Nat.zero_le limit

/-- **Settings are read back from their text.** -/
theorem readText_print (writable : c.IsWritable (Scan.levelLimit - 1)) :
    readText shape decode c.encode.print = .ok c := by
  refine LiteratureReview.readText_print (holds_encode writable) ?_ (decode_encode writable)
  exact Nat.lt_of_le_of_lt (depth_encode_le (by decide) writable) (by decide)

end FieldConfig

/-! ## §2. The settings of a forest. -/

theorem FieldConfig.isWritable_ofCategory {limit : Nat} {c : Category} {parent : Option String}
    (writable : c.IsWritable limit) : (ofCategory c parent).IsWritable limit := by
  cases writable with
  | @node h k children value below =>
    intro v there
    refine value v ?_
    cases k <;> exact there

mutual

/-- Every entry of a tree that can be written has settings that can be. -/
theorem isWritable_flattenTree {limit start : Nat} {parentIndex : Option Nat}
    {parent : Option String} :
    ∀ {c : Category}, c.IsWritable limit → ∀ d ∈ flattenTree start parentIndex parent c,
      d.config.IsWritable limit
  | .node h k none, writable, d, mem => by
    rw [flattenTree, List.mem_singleton] at mem
    rw [mem]
    exact FieldConfig.isWritable_ofCategory writable
  | .node h k (some cs), writable, d, mem => by
    rw [flattenTree] at mem
    rcases List.mem_cons.1 mem with rfl | later
    · exact FieldConfig.isWritable_ofCategory writable
    · cases writable with
      | node value below => exact isWritable_flattenForest (below cs rfl) d later

/-- Every entry of a forest that can be written has settings that can be. -/
theorem isWritable_flattenForest {limit start : Nat} {parentIndex : Option Nat}
    {parent : Option String} :
    ∀ {cs : List Category}, (∀ c ∈ cs, c.IsWritable limit) →
      ∀ d ∈ flattenForest start parentIndex parent cs, d.config.IsWritable limit
  | [], _, d, mem => by
    rw [flattenForest] at mem
    cases mem
  | c :: rest, writable, d, mem => by
    rw [flattenForest] at mem
    rcases List.mem_append.1 mem with first | later
    · exact isWritable_flattenTree (writable c List.mem_cons_self) d first
    · exact isWritable_flattenForest (fun c mem => writable c (List.mem_cons_of_mem _ mem)) d later

end

theorem isWritable_of_mem_flatten {limit : Nat} {categories : List Category}
    (writable : ∀ c ∈ categories, c.IsWritable limit) {d : FieldDescriptor}
    (mem : d ∈ flatten categories) : d.config.IsWritable limit :=
  isWritable_flattenForest writable d mem

end LiteratureReview
