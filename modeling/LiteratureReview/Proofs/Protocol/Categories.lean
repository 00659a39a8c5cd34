/-
  LiteratureReview.Proofs.Protocol.Categories
  ───────────────────────────────────────────
  Categories are read back from the way they are written.

  What may stand in the way is the initial value of a simple category, which
  is any JSON value: it has to be proper, with its members in order, and
  other than null (`IsWritable`).  Then a tree is decoded from what is
  written of it (`decodeUpTo_encode`), one node after the other from the
  root.

  A category that has been read from a value is writable, and is written no
  deeper than the value was (`writable_of_decodeUpTo`).
-/
import LiteratureReview.Proofs.Protocol.Sections
import LiteratureReview.Protocol.Category

namespace LiteratureReview

open Json Fields Shape

/-- The value a simple category starts with. -/
def CategoryKind.initialValue? : CategoryKind → Option Json
  | .simple _ _ _ initialValue => initialValue
  | .list _ | .independent _ _ | .dependent _ => none

theorem ScalarType.lookup_name (s : ScalarType) : table.lookup s.name = some s := by
  cases s <;> rfl

namespace Category

variable {at_ : Standing} {h : CategoryHead} {k : CategoryKind} {children : Option (List Category)}
  {c : Category} {limit : Nat}

/-! ## §1. What is written. -/

theorem encodeAll_eq_map (cs : List Category) : encodeAll cs = cs.map encode := by
  induction cs with
  | nil => rfl
  | cons c rest ih => rw [encodeAll, ih, List.map_cons]

/-- The tags that name the kind. -/
def tagTable : CategoryKind → List (String × Option Json)
  | .simple .. => [("category_type", some (.text "Simple"))]
  | .list .. => [("category_type", some (.text "List"))]
  | .independent .. =>
    [("category_type", some (.text "DynamicList")), ("dynamic_subtype", some (.text "Independent"))]
  | .dependent .. =>
    [("category_type", some (.text "DynamicList")), ("dynamic_subtype", some (.text "Dependent"))]

/-- The fields that stand between the title and `mandatory`. -/
def kindTable : CategoryKind → List (String × Option Json)
  | .simple type _ _ _ => [("type", some (.text type.name))]
  | .list values => [("values", some (listOf NamedEntry.encode values))]
  | .independent referenceName initialValues =>
    [("reference_name", referenceName.map .text),
     ("initial_values", some (listOf NamedEntry.encode initialValues))]
  | .dependent dependsOn => [("depends_on", some dependsOn.encode)]

/-- The fields that stand behind `numberOfValues`. -/
def limitTable : CategoryKind → List (String × Option Json)
  | .simple _ maxChar pattern initialValue =>
    [("max_char", maxChar.map Json.u32), ("pattern", pattern.map .text),
     ("initial_value", initialValue.map id)]
  | .list _ | .independent _ _ | .dependent _ => []

/-- The fields of a category, its tags apart. -/
def table (h : CategoryHead) (k : CategoryKind) (children : Option (List Category)) :
    List (String × Option Json) :=
  [("name", some h.name.encode), ("title", h.title.map .text)] ++ kindTable k
    ++ [("mandatory", some (.bool h.mandatory)), ("numberOfValues", h.numberOfValues.map Json.i64)]
    ++ limitTable k ++ [("sub_categories", children.map (listOf encode))]

theorem tags_eq (k : CategoryKind) : tags k = given (tagTable k) := by
  cases k <;> rfl

theorem kindMembers_eq (k : CategoryKind) : kindMembers k = given (kindTable k) := by
  cases k with
  | independent =>
    simp only [kindMembers, member_eq_given, memberIf_eq_given, ← given_append]
    rfl
  | _ => rfl

theorem limitMembers_eq (k : CategoryKind) : limitMembers k = given (limitTable k) := by
  cases k with
  | simple =>
    simp only [limitMembers, memberIf_eq_given, ← given_append]
    rfl
  | _ => rfl

theorem encode_eq (h : CategoryHead) (k : CategoryKind) (children : Option (List Category)) :
    encode (.node h k children) = .object (given (tagTable k ++ table h k children)) := by
  have own : tags k ++ ownMembers h k ++
      memberIf "sub_categories" (fun cs => .list (encodeAll cs)) children =
        given (tagTable k ++ table h k children) := by
    have same : (fun cs => Json.list (encodeAll cs)) = listOf encode := by
      funext cs
      rw [encodeAll_eq_map]
      rfl
    simp only [ownMembers, tags_eq, kindMembers_eq, limitMembers_eq, member_eq_given,
      memberIf_eq_given, same, table, given_append, ← List.append_assoc]
    simp only [given, List.filterMap_cons, List.filterMap_nil, List.append_assoc,
      List.cons_append, List.nil_append, Option.map_some]
  rw [← own]
  cases children with
  | none => rw [encode, memberIf, List.append_nil]
  | some cs => rw [encode, memberIf, member]

/-- The keys of a category differ from each other and from its tags. -/
theorem distinct (h : CategoryHead) (k : CategoryKind) (children : Option (List Category)) :
    ((tagTable k ++ table h k children).map (·.1)).Nodup := by
  cases k with
  | simple => exact (by decide : (union.tag :: ["name", "title", "type", "mandatory",
      "numberOfValues", "max_char", "pattern", "initial_value", "sub_categories"]).Nodup)
  | list => exact (by decide : (union.tag :: listType.fields).Nodup)
  | independent => exact (by decide :
      (union.tag :: dynamicUnion.tag :: ["name", "title", "reference_name", "initial_values",
        "mandatory", "numberOfValues", "sub_categories"]).Nodup)
  | dependent => exact (by decide : (union.tag :: dynamicUnion.tag :: dependentType.fields).Nodup)

/-! ## §2. Writable categories. -/

/-- A category whose initial values, and those below it, can be written: they are
proper, with their members in order, other than null, and not too deep. -/
inductive IsWritable (limit : Nat) : Category → Prop where
  | node {h : CategoryHead} {k : CategoryKind} {children : Option (List Category)}
      (value : ∀ v, k.initialValue? = some v → v.IsOrdered ∧ v ≠ .null ∧ v.depth < limit)
      (below : ∀ cs, children = some cs → ∀ c ∈ cs, IsWritable limit c) :
      IsWritable limit (.node h k children)

/-- What is written of a writable category is proper. -/
theorem IsWritable.isProper_encode (writable : IsWritable limit c) : c.encode.IsProper := by
  induction writable with
  | @node h k children value below ih =>
    have entries : ∀ items : List NamedEntry, (listOf NamedEntry.encode items).IsProper :=
      fun items => (holds_listOf fun e _ => NamedEntry.holds_encode e).1
    rw [encode_eq]
    refine isProper_given (distinct h k children) fun field mem => ?_
    simp only [table, List.mem_append, List.mem_cons, List.not_mem_nil, or_false] at mem
    rcases mem with tag | ((((rfl | rfl) | own) | (rfl | rfl)) | own) | rfl
    · cases k <;> simp only [tagTable, List.mem_cons, List.not_mem_nil, or_false] at tag
      · rw [tag]
        exact meets_required _ rfl
      · rw [tag]
        exact meets_required _ rfl
      · rcases tag with rfl | rfl <;> exact meets_required _ rfl
      · rcases tag with rfl | rfl <;> exact meets_required _ rfl
    · exact meets_required _ rfl
    · exact meets_optional _ fun s _ => rfl
    · cases k <;> simp only [kindTable, List.mem_cons, List.not_mem_nil, or_false] at own
      · rw [own]
        exact meets_required _ rfl
      · rw [own]
        exact meets_required _ (entries _)
      · rcases own with rfl | rfl
        · exact meets_optional _ fun s _ => rfl
        · exact meets_required _ (entries _)
      · rw [own]
        exact meets_required _ rfl
    · exact meets_required _ rfl
    · exact meets_optional _ fun i _ => (holds_i64 i).1
    · cases k <;> simp only [limitTable, List.mem_cons, List.not_mem_nil, or_false] at own
      rcases own with rfl | rfl | rfl
      · exact meets_optional _ fun n _ => (holds_u32 n).1
      · exact meets_optional _ fun s _ => rfl
      · exact meets_optional _ fun v there => (value v there).1.isProper
    · refine meets_optional _ fun cs there => isProper_list_iff.2 fun v mem => ?_
      obtain ⟨c, below, rfl⟩ := List.mem_map.1 mem
      exact ih cs there c below

/-! ## §3. Decoding what is written. -/

section Decode

variable {t : RecordType} {child : Decoder Category}

/-- The keys of a category without its tags. -/
theorem table_distinct (h : CategoryHead) (k : CategoryKind) (children : Option (List Category)) :
    ((table h k children).map (·.1)).Nodup := by
  have all := distinct h k children
  rw [List.map_append] at all
  exact (List.nodup_append.1 all).2.1

theorem headOf_table (h : CategoryHead) (k : CategoryKind) (children : Option (List Category)) :
    headOf ⟨t, at_, .named (given (table h k children))⟩ = .done h := by
  have keys := table_distinct h k children
  have name : (table h k children).lookup "name" = some (some h.name.encode) := by
    cases k <;> rfl
  have title : (table h k children).lookup "title" = some (h.title.map .text) := by
    cases k <;> rfl
  have mandatory : (table h k children).lookup "mandatory" = some (some (.bool h.mandatory)) := by
    cases k <;> rfl
  -- the count is read as an integer first
  have count : (table h k children).lookup "numberOfValues" =
      some ((h.numberOfValues.map Int64.toInt).map fun i => .number (.int i)) := by
    rw [Option.map_map]
    cases k <;> rfl
  have back : (h.numberOfValues.map Int64.toInt).map Int64.ofInt = h.numberOfValues := by
    cases h.numberOfValues with
    | none => rfl
    | some i => exact congrArg some (Int64.ofInt_toInt i)
  have read : optional ⟨t, at_, .named (given (table h k children))⟩ "numberOfValues" Decoder.i64 =
      .done (h.numberOfValues.map Int64.toInt) := by
    refine optional_given "numberOfValues" keys count fun i there => ⟨nofun, ?_⟩
    obtain ⟨n, _, rfl⟩ := Option.map_eq_some_iff.1 there
    exact Decoder.i64_encode n
  unfold headOf
  rw [required_given "name" keys name h.name.decode_encode,
    optional_given "title" keys title fun s _ => ⟨nofun, rfl⟩,
    required_given "mandatory" keys mandatory rfl, read]
  show Reading.done (CategoryHead.mk h.name h.title h.mandatory
    ((h.numberOfValues.map Int64.toInt).map Int64.ofInt)) = _
  rw [back]

/-- A category is read when its kind is and its children are. -/
theorem nodeOf_table {kind : Fields → Reading CategoryKind}
    (kinds : kind ⟨t, at_, .named (given (table h k children))⟩ = .done k)
    (below : ∀ cs, children = some cs → ∀ c ∈ cs, child at_ c.encode = .ok c) :
    nodeOf child kind ⟨t, at_, .named (given (table h k children))⟩ =
      .done (.node h k children) := by
  have there : (table h k children).lookup "sub_categories" =
      some (children.map (listOf encode)) := by
    cases k <;> rfl
  unfold nodeOf
  rw [headOf_table, kinds, optional_given "sub_categories" (table_distinct h k children) there
    fun cs given => ⟨nofun, Decoder.list_listOf (below cs given)⟩]
  rfl

theorem decodeSimple_table {type : ScalarType} {maxChar : Option UInt32} {pattern : Option String}
    {initialValue : Option Json}
    (value : ∀ v, initialValue = some v → v.IsOrdered ∧ v ≠ .null ∧ v.depth < limit)
    (below : ∀ cs, children = some cs → ∀ c ∈ cs, child at_ c.encode = .ok c) :
    decodeSimple child at_
        (.object (given (table h (.simple type maxChar pattern initialValue) children))) =
      .ok (.node h (.simple type maxChar pattern initialValue) children) := by
  have keys := table_distinct h (.simple type maxChar pattern initialValue) children
  unfold decodeSimple RecordType.decode
  simp only
  rw [nodeOf_table ?_ below]
  · rfl
  · rw [required_given "type" keys rfl (Decoder.choice_text type.lookup_name),
      optional_given "max_char" keys rfl fun n _ => ⟨nofun, Decoder.u32_encode n⟩,
      optional_given "pattern" keys rfl fun s _ => ⟨nofun, rfl⟩,
      optional_given "initial_value" keys rfl fun v there =>
        ⟨(value v there).2.1, congrArg Except.ok (normalize_of_isOrdered (value v there).1)⟩]
    rfl

theorem decodeList_table {values : List NamedEntry}
    (below : ∀ cs, children = some cs → ∀ c ∈ cs, child at_ c.encode = .ok c) :
    decodeList child at_ (.object (given (table h (.list values) children))) =
      .ok (.node h (.list values) children) := by
  unfold decodeList RecordType.decode
  simp only
  rw [nodeOf_table ?_ below]
  · rfl
  · rw [required_given "values" (table_distinct h (.list values) children) rfl
      (Decoder.list_listOf fun e _ => NamedEntry.decode_encode e)]
    rfl

theorem decodeIndependent_table {referenceName : Option String} {initialValues : List NamedEntry}
    (below : ∀ cs, children = some cs → ∀ c ∈ cs, child at_ c.encode = .ok c) :
    decodeIndependent child at_
        (.object (given (table h (.independent referenceName initialValues) children))) =
      .ok (.node h (.independent referenceName initialValues) children) := by
  have keys := table_distinct h (.independent referenceName initialValues) children
  unfold decodeIndependent RecordType.decode
  simp only
  rw [nodeOf_table ?_ below]
  · rfl
  · rw [optional_given "reference_name" keys rfl fun s _ => ⟨nofun, rfl⟩,
      required_given "initial_values" keys rfl
        (Decoder.list_listOf fun e _ => NamedEntry.decode_encode e)]
    rfl

theorem decodeDependent_table {dependsOn : Identifier}
    (below : ∀ cs, children = some cs → ∀ c ∈ cs, child at_ c.encode = .ok c) :
    decodeDependent child at_ (.object (given (table h (.dependent dependsOn) children))) =
      .ok (.node h (.dependent dependsOn) children) := by
  unfold decodeDependent RecordType.decode
  simp only
  rw [nodeOf_table ?_ below]
  · rfl
  · rw [required_given "depends_on" (table_distinct h (.dependent dependsOn) children) rfl
      dependsOn.decode_encode]
    rfl

/-- The tag in front decides how the rest is read. -/
theorem decodeWith_given {name : String} {rest : List (String × Option Json)}
    (known : name ∈ union.variants)
    (keys : (((union.tag, some (.text name)) :: rest).map (·.1)).Nodup) :
    decodeWith child at_ (.object (given ((union.tag, some (.text name)) :: rest))) =
      if name = "Simple" then decodeSimple child .held (.object (given rest))
      else if name = "List" then decodeList child .held (.object (given rest))
      else decodeDynamicWith child .held (.object (given rest)) := by
  unfold decodeWith
  rw [union.split_given at_ known keys]
  rfl

/-- So does the second tag of a dynamic list. -/
theorem decodeDynamicWith_given {name : String} {rest : List (String × Option Json)}
    (known : name ∈ dynamicUnion.variants)
    (keys : (((dynamicUnion.tag, some (.text name)) :: rest).map (·.1)).Nodup) :
    decodeDynamicWith child at_ (.object (given ((dynamicUnion.tag, some (.text name)) :: rest))) =
      if name = "Independent" then decodeIndependent child .held (.object (given rest))
      else decodeDependent child .held (.object (given rest)) := by
  unfold decodeDynamicWith
  rw [dynamicUnion.split_given at_ known keys]
  rfl

/-- One category is decoded from what is written of it when those below it are. -/
theorem decodeWith_encode
    (value : ∀ v, k.initialValue? = some v → v.IsOrdered ∧ v ≠ .null ∧ v.depth < limit)
    (below : ∀ cs, children = some cs → ∀ c ∈ cs, child .held c.encode = .ok c) :
    decodeWith child at_ (encode (.node h k children)) = .ok (.node h k children) := by
  have keys := distinct h k children
  rw [encode_eq]
  cases k with
  | simple type maxChar pattern initialValue =>
    exact (decodeWith_given (by decide) keys).trans (decodeSimple_table value below)
  | list values =>
    exact (decodeWith_given (by decide) keys).trans (decodeList_table below)
  | independent referenceName initialValues =>
    have inner := (List.nodup_cons.1 keys).2
    exact (decodeWith_given (by decide) keys).trans <|
      (decodeDynamicWith_given (by decide) inner).trans (decodeIndependent_table below)
  | dependent dependsOn =>
    have inner := (List.nodup_cons.1 keys).2
    exact (decodeWith_given (by decide) keys).trans <|
      (decodeDynamicWith_given (by decide) inner).trans (decodeDependent_table below)

end Decode

/-- What is written of a category below is less deep. -/
theorem depth_child_lt {cs : List Category} (mem : c ∈ cs) :
    c.encode.depth + 1 < (encode (.node h k (some cs))).depth := by
  have inside : c.encode.depth < (listOf encode cs).depth := depth_item_lt (List.mem_map_of_mem mem)
  have field : ("sub_categories", some (listOf encode cs)) ∈ tagTable k ++ table h k (some cs) :=
    List.mem_append_right _ (List.mem_append_right _ List.mem_cons_self)
  have outside := depth_field_lt field
  rw [← encode_eq] at outside
  omega

/-- **A tree is decoded from what is written of it**, as long as there are levels
left. -/
theorem decodeUpTo_encode {n : Nat} (writable : IsWritable limit c) (enough : c.encode.depth < n) :
    decodeUpTo n at_ c.encode = .ok c := by
  induction n generalizing c at_ with
  | zero => omega
  | succ n ih =>
    cases writable with
    | @node h k children value below =>
      refine decodeWith_encode value fun cs there c mem => ?_
      subst there
      have := depth_child_lt (h := h) (k := k) mem
      exact ih (below cs rfl c mem) (by omega)

theorem decode_encode (writable : IsWritable limit c) : decode at_ c.encode = .ok c :=
  decodeUpTo_encode writable (Nat.lt_succ_self _)

/-- A category is written with its kind under `category_type`. -/
theorem lookup_tag (h : CategoryHead) (k : CategoryKind) (children : Option (List Category)) :
    ∃ name ∈ union.variants,
      (given (tagTable k ++ table h k children)).lookup union.tag = some (.text name) := by
  have keys := distinct h k children
  cases k with
  | simple => exact ⟨"Simple", by decide, lookup_given keys rfl⟩
  | list => exact ⟨"List", by decide, lookup_given keys rfl⟩
  | independent => exact ⟨"DynamicList", by decide, lookup_given keys rfl⟩
  | dependent => exact ⟨"DynamicList", by decide, lookup_given keys rfl⟩

theorem holds_encode (writable : IsWritable limit c) : shape.Holds c.encode := by
  have proper := writable.isProper_encode
  have read : checkOf decode c.encode = .ok () := by
    unfold checkOf
    rw [decode_encode writable]
    rfl
  obtain ⟨h, k, children⟩ := c
  obtain ⟨name, known, tag⟩ := lookup_tag h k children
  rw [encode_eq] at proper read ⊢
  exact holds_union proper tag known read

/-! ## §4. Categories that have been read. -/

/-- What is known of the kind of a category that has been read from a value: its
fields are less deep than the value. -/
structure Stems (v : Json) (k : CategoryKind) : Prop where
  value : ∀ w, k.initialValue? = some w → w.IsOrdered ∧ w ≠ .null ∧ w.depth < v.depth
  fields : ∀ field ∈ kindTable k ++ limitTable k, Meets (·.depth < v.depth) field

/-- A value with parts is deeper than nothing. -/
theorem depth_pos {v w : Json} (part : w ∈ v.parts) : 0 < v.depth :=
  Nat.lt_of_le_of_lt (Nat.zero_le _) (depth_part_lt part)

/-- Entries are written no deeper than the list they have been read from. -/
theorem depth_entries_lt {v w : Json} {entries : List NamedEntry} (part : w ∈ v.parts)
    (read : Decoder.list NamedEntry.decode at_ w = .ok entries) :
    (listOf NamedEntry.encode entries).depth < v.depth := by
  refine Nat.lt_of_le_of_lt ?_ (depth_part_lt part)
  refine Decoder.depth_listOf_le read fun x e inside named => ?_
  obtain ⟨f, values, rfl, built⟩ := RecordType.exists_of_decode named
  obtain ⟨name, there, _⟩ := Reading.map_eq_done_iff.1 built
  obtain ⟨y, part, _⟩ := exists_part_of_required there
  exact depth_pos (values ▸ part)

variable {f : Fields} {v : Json}

theorem stems_simple (proper : v.HasProperNumbers) (parts : ∀ w ∈ f.values, w ∈ v.parts)
    (h : (CategoryKind.simple <$> f.required "type" (Decoder.choice ScalarType.table)
      <*> f.optional "max_char" Decoder.u32 <*> f.optional "pattern" Decoder.text
      <*> f.optional "initial_value" Decoder.any) = Reading.done k) : Stems v k := by
  simp only [Reading.seq_eq_done_iff, Reading.map_eq_done_iff] at h
  obtain ⟨_, ⟨_, ⟨_, ⟨type, there, rfl⟩, maxChar, _, rfl⟩, pattern, _, rfl⟩, initial, read,
    rfl⟩ := h
  have some : 0 < v.depth := by
    obtain ⟨w, part, _⟩ := exists_part_of_required there
    exact depth_pos (parts w part)
  have value : ∀ w, initial = .some w → w.IsOrdered ∧ w ≠ .null ∧ w.depth < v.depth := by
    rintro w rfl
    obtain ⟨u, part, present, read⟩ := exists_part_of_optional read
    obtain rfl : u.normalize = w := Except.ok.inj read
    refine ⟨isOrdered_normalize (proper.part (parts u part)), ?_, ?_⟩
    · intro null
      cases u <;> first | exact present rfl | cases null
    · exact Nat.lt_of_le_of_lt (depth_normalize_le u) (depth_part_lt (parts u part))
  refine ⟨value, fun field mem => ?_⟩
  simp only [kindTable, limitTable, List.mem_append, List.mem_cons, List.not_mem_nil, or_false]
    at mem
  rcases mem with rfl | rfl | rfl | rfl
  · exact meets_required _ some
  · exact meets_optional _ fun n _ => some
  · exact meets_optional _ fun s _ => some
  · exact meets_optional _ fun w there => (value w there).2.2

theorem stems_list (parts : ∀ w ∈ f.values, w ∈ v.parts)
    (h : CategoryKind.list <$> f.required "values" (Decoder.list NamedEntry.decode) =
      Reading.done k) : Stems v k := by
  obtain ⟨values, read, rfl⟩ := Reading.map_eq_done_iff.1 h
  obtain ⟨w, part, read⟩ := exists_part_of_required read
  refine ⟨nofun, fun field mem => ?_⟩
  simp only [kindTable, limitTable, List.append_nil, List.mem_singleton] at mem
  rw [mem]
  exact meets_required _ (depth_entries_lt (parts w part) read)

theorem stems_independent (parts : ∀ w ∈ f.values, w ∈ v.parts)
    (h : (CategoryKind.independent <$> f.optional "reference_name" Decoder.text
      <*> f.required "initial_values" (Decoder.list NamedEntry.decode)) = Reading.done k) :
    Stems v k := by
  simp only [Reading.seq_eq_done_iff, Reading.map_eq_done_iff] at h
  obtain ⟨_, ⟨name, _, rfl⟩, values, read, rfl⟩ := h
  obtain ⟨w, part, read⟩ := exists_part_of_required read
  refine ⟨nofun, fun field mem => ?_⟩
  simp only [kindTable, limitTable, List.append_nil, List.mem_cons, List.not_mem_nil, or_false]
    at mem
  rcases mem with rfl | rfl
  · exact meets_optional _ fun s _ => depth_pos (parts w part)
  · exact meets_required _ (depth_entries_lt (parts w part) read)

theorem stems_dependent (parts : ∀ w ∈ f.values, w ∈ v.parts)
    (h : CategoryKind.dependent <$> f.required "depends_on" Identifier.decode = Reading.done k) :
    Stems v k := by
  obtain ⟨dependsOn, read, rfl⟩ := Reading.map_eq_done_iff.1 h
  obtain ⟨w, part, _⟩ := exists_part_of_required read
  refine ⟨nofun, fun field mem => ?_⟩
  simp only [kindTable, limitTable, List.append_nil, List.mem_singleton] at mem
  rw [mem]
  exact meets_required _ (depth_pos (parts w part))

/-- Tags and names are scalars, so that what is special to the kind and the categories
below decide how deep the members of a category are. -/
theorem meets_table {n : Nat} {h : CategoryHead} {k : CategoryKind}
    {children : Option (List Category)}
    (own : ∀ field ∈ kindTable k ++ limitTable k, Meets (·.depth ≤ n) field)
    (below : ∀ cs, children = some cs → (listOf encode cs).depth ≤ n) :
    ∀ field ∈ tagTable k ++ table h k children, Meets (·.depth ≤ n) field := by
  have scalar : ∀ {w : Json}, w.depth = 0 → w.depth ≤ n := fun flat => flat ▸ Nat.zero_le n
  intro field mem
  simp only [table, List.mem_append, List.mem_cons, List.not_mem_nil, or_false] at mem
  rcases mem with tag | ((((rfl | rfl) | mine) | (rfl | rfl)) | mine) | rfl
  · cases k <;> simp only [tagTable, List.mem_cons, List.not_mem_nil, or_false] at tag
    · rw [tag]
      exact meets_required _ (scalar rfl)
    · rw [tag]
      exact meets_required _ (scalar rfl)
    · rcases tag with rfl | rfl <;> exact meets_required _ (scalar rfl)
    · rcases tag with rfl | rfl <;> exact meets_required _ (scalar rfl)
  · exact meets_required _ (scalar rfl)
  · exact meets_optional _ fun s _ => scalar rfl
  · exact own field (List.mem_append_left _ mine)
  · exact meets_required _ (scalar rfl)
  · exact meets_optional _ fun i _ => scalar rfl
  · exact own field (List.mem_append_right _ mine)
  · exact meets_optional _ below

/-- What holds of the categories below holds of a category whose kind stems from the
value it has been read from. -/
theorem writable_of_nodeOf {child : Decoder Category} {kind : Fields → Reading CategoryKind}
    (parts : ∀ w ∈ f.values, w ∈ v.parts) (shallow : v.depth ≤ limit)
    (kinds : ∀ k, kind f = .done k → Stems v k)
    (below : ∀ w c, w.depth < v.depth → (∃ u ∈ v.parts, w ∈ u.parts) →
      child f.standing w = .ok c → IsWritable limit c ∧ c.encode.depth ≤ w.depth)
    (h : nodeOf child kind f = .done c) : IsWritable limit c ∧ c.encode.depth ≤ v.depth := by
  unfold nodeOf at h
  simp only [Reading.seq_eq_done_iff, Reading.map_eq_done_iff] at h
  obtain ⟨_, ⟨_, ⟨head, heads, rfl⟩, k, kindRead, rfl⟩, children, lists, rfl⟩ := h
  have stems := kinds k kindRead
  have each : ∀ cs, children = some cs → (listOf encode cs).depth < v.depth ∧
      ∀ c ∈ cs, IsWritable limit c := by
    rintro cs rfl
    obtain ⟨u, part, _, read⟩ := exists_part_of_optional lists
    have there : u ∈ v.parts := parts u part
    have items : ∀ w c, w ∈ u.parts → child f.standing w = .ok c →
        IsWritable limit c ∧ c.encode.depth ≤ w.depth := fun w c inside read =>
      below w c (Nat.lt_trans (depth_part_lt inside) (depth_part_lt there)) ⟨u, there, inside⟩ read
    constructor
    · refine Nat.lt_of_le_of_lt (Decoder.depth_listOf_le read ?_) (depth_part_lt there)
      exact fun w c inside read => (items w c inside read).2
    · intro c mem
      obtain ⟨w, inside, read⟩ := Decoder.exists_item_of_list read c mem
      exact (items w c inside read).1
  -- the name is there, so that the value is not a scalar
  have positive : 0 < v.depth := by
    unfold headOf at heads
    simp only [Reading.seq_eq_done_iff, Reading.map_eq_done_iff] at heads
    obtain ⟨_, ⟨_, ⟨_, ⟨name, there, _⟩, _⟩, _⟩, _⟩ := heads
    obtain ⟨w, part, _⟩ := exists_part_of_required there
    exact depth_pos (parts w part)
  constructor
  · refine .node (fun w there => ?_) fun cs there => (each cs there).2
    obtain ⟨ordered, present, inside⟩ := stems.value w there
    exact ⟨ordered, present, Nat.lt_of_lt_of_le inside shallow⟩
  · have own : ∀ field ∈ kindTable k ++ limitTable k, Meets (·.depth ≤ v.depth - 1) field :=
      fun field mem w there => Nat.le_sub_one_of_lt (stems.fields field mem w there)
    have fields := meets_table (h := head) own fun cs there =>
      Nat.le_sub_one_of_lt (each cs there).1
    have := depth_given_le fields
    rw [encode_eq]
    omega

/-- The same of a category that has been read as a record from parts of the value. -/
theorem writable_of_record {type : RecordType} {child : Decoder Category}
    {kind : Fields → Reading CategoryKind} {contents : Json}
    (front : ∀ w ∈ contents.parts, w ∈ v.parts) (shallow : v.depth ≤ limit)
    (kinds : ∀ f : Fields, (∀ w ∈ f.values, w ∈ v.parts) → ∀ k, kind f = .done k → Stems v k)
    (below : ∀ w c, w.depth < v.depth → (∃ u ∈ v.parts, w ∈ u.parts) →
      child .held w = .ok c → IsWritable limit c ∧ c.encode.depth ≤ w.depth)
    (h : type.decode (nodeOf child kind) .held contents = .ok c) :
    IsWritable limit c ∧ c.encode.depth ≤ v.depth := by
  obtain ⟨f, values, standing, built⟩ := RecordType.exists_of_decode h
  have parts : ∀ w ∈ f.values, w ∈ v.parts := fun w mem => front w (values ▸ mem)
  exact writable_of_nodeOf parts shallow (kinds f parts) (standing ▸ below) built

/-- A category has been read by one of four readers, from parts of the value. -/
theorem cases_of_decodeWith {child : Decoder Category} (h : decodeWith child at_ v = .ok c) :
    ∃ contents : Json, (∀ w ∈ contents.parts, w ∈ v.parts) ∧
      (decodeSimple child .held contents = .ok c ∨ decodeList child .held contents = .ok c ∨
        decodeIndependent child .held contents = .ok c ∨
          decodeDependent child .held contents = .ok c) := by
  obtain ⟨⟨variant, contents⟩, tagged, read⟩ := exists_of_bind_eq_ok h
  have front := UnionType.parts_of_split tagged
  simp only at read
  split at read
  · exact ⟨contents, front, .inl read⟩
  split at read
  · exact ⟨contents, front, .inr (.inl read)⟩
  -- a dynamic list has a second tag
  obtain ⟨⟨subtype, own⟩, inner, read⟩ := exists_of_bind_eq_ok read
  have behind := UnionType.parts_of_split inner
  refine ⟨own, fun w mem => front w (behind w mem), .inr (.inr ?_)⟩
  simp only at read
  split at read
  · exact .inl read
  · exact .inr read

/-- **A category that has been read from a value is writable**, and is written no
deeper than the value was. -/
theorem writable_of_decodeUpTo {n : Nat} (proper : v.HasProperNumbers) (shallow : v.depth ≤ limit)
    (h : decodeUpTo n at_ v = .ok c) : IsWritable limit c ∧ c.encode.depth ≤ v.depth := by
  induction n generalizing v c at_ with
  | zero => cases h
  | succ n ih =>
    have below : ∀ w c, w.depth < v.depth → (∃ u ∈ v.parts, w ∈ u.parts) →
        decodeUpTo n .held w = .ok c → IsWritable limit c ∧ c.encode.depth ≤ w.depth := by
      rintro w c inside ⟨u, there, part⟩ read
      exact ih ((proper.part there).part part) (by omega) read
    obtain ⟨contents, front, simple | list | independent | dependent⟩ := cases_of_decodeWith h
    · exact writable_of_record front shallow (fun _ parts _ => stems_simple proper parts) below
        simple
    · exact writable_of_record front shallow (fun _ parts _ => stems_list parts) below list
    · exact writable_of_record front shallow (fun _ parts _ => stems_independent parts) below
        independent
    · exact writable_of_record front shallow (fun _ parts _ => stems_dependent parts) below
        dependent

end Category

end LiteratureReview
