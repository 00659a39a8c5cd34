/-
  LiteratureReview.Proofs.Store.Conflicts
  ───────────────────────────────────────
  The wording of a failure tells a taken label from everything else.

  The store only sees the words of the engine.  A text that occurs in them is
  looked for letter by letter: all wordings begin alike, up to the name of
  the constraint, and only that of a key has a `Q` in it.  So none but a key
  can be taken for the key on labels, and of the keys only one whose first
  column is written `projects.label`.

    • `mem_constraints_of_write` — what a transaction can complain about,
    • `isLabelConflict_iff` — what is understood as a taken label.
-/
import LiteratureReview.Proofs.Json.Numerals
import LiteratureReview.Proofs.Store.Constraints
import LiteratureReview.Proofs.Store.File

namespace LiteratureReview

/-! ## §1. The constraints of the tables. -/

namespace EntityType

variable {entity : EntityType} {others : List Row} {row : Row} {broken : Constraint}

/-- The constraints of a table, references apart. -/
def constraints (entity : EntityType) : List Constraint :=
  entity.layout.columns.map (fun c => .notNull entity c.name)
    ++ entity.layout.columns.flatMap (fun c => c.check.toList.map fun k => .check (k.text c.name))
    ++ entity.layout.keys.map (.unique entity)

/-- A row breaks a constraint of its table. -/
theorem mem_constraints_of_findBroken (h : entity.findBroken others row = some broken) :
    broken ∈ entity.constraints := by
  unfold constraints
  rcases findBroken_cases h with ⟨c, column, rfl⟩ | ⟨c, column, k, check, rfl⟩ |
    ⟨key, known, rfl, _⟩
  · exact List.mem_append_left _ (List.mem_append_left _ (List.mem_map_of_mem column))
  · refine List.mem_append_left _ (List.mem_append_right _ (List.mem_flatMap.2 ⟨c, column, ?_⟩))
    simp [check]
  · exact List.mem_append_right _ (List.mem_map_of_mem known)

end EntityType

/-- A transaction that fails complains about a reference, or about a constraint of a
table. -/
theorem Database.mem_constraints_of_write {db : Database} {writes : List (EntityType × Row)}
    {broken : Constraint} (h : db.write writes = .error broken) :
    broken = .reference ∨ ∃ entity : EntityType, broken ∈ entity.constraints := by
  obtain ⟨_, w, _, _, found | reference⟩ := write_error h
  · exact .inr ⟨w.1, EntityType.mem_constraints_of_findBroken found⟩
  · exact .inl reference

/-! ## §2. Letters that do not occur. -/

/-- The letter does not occur in the text. -/
def Lacks (c : Char) (s : String) : Prop := c ∉ s.toList

variable {c : Char} {s t : String}

/-- The letters of a text that is written out are gone through as a list. -/
theorem lacks_ofList {letters : List Char} (h : c ∉ letters) : Lacks c (String.ofList letters) := by
  unfold Lacks
  rwa [String.toList_ofList]

theorem lacks_append (front : Lacks c s) (back : Lacks c t) : Lacks c (s ++ t) := by
  unfold Lacks at front back ⊢
  rw [String.toList_append, List.mem_append]
  exact not_or.2 ⟨front, back⟩

theorem lacks_intercalate {parts : List String} (between : Lacks c s)
    (each : ∀ t ∈ parts, Lacks c t) : Lacks c (s.intercalate parts) := by
  induction parts with
  | nil => exact List.not_mem_nil
  | cons t rest ih =>
    obtain ⟨first, others⟩ := List.forall_mem_cons.1 each
    cases rest with
    | nil => rwa [String.intercalate_singleton]
    | cons u rest =>
      rw [String.intercalate_cons_cons]
      exact lacks_append (lacks_append first between) (ih others)

theorem lacks_toString (i : Int) : Lacks 'Q' (toString i) := by
  intro mem
  rw [Scan.toString_int_toList, List.mem_append] at mem
  rcases mem with sign | digit
  · unfold Scan.signText at sign
    split at sign
    · cases List.mem_singleton.1 sign
    · cases sign
  · cases isDigit_of_mem_toDigits digit

/-- The names that a check allows have no `Q`. -/
def Check.NamesLackQ : Check → Prop
  | .names allowed => ∀ name ∈ allowed, Lacks 'Q' name
  | .flag | .atLeast _ | .between _ _ => True

theorem Check.lacks_text {k : Check} {column : String} (front : Lacks 'Q' column)
    (names : k.NamesLackQ) : Lacks 'Q' (k.text column) := by
  have comma : Lacks 'Q' ", " := lacks_ofList (by decide)
  have mark : Lacks 'Q' "'" := lacks_ofList (by decide)
  cases k with
  | names allowed =>
    have quoted : ∀ t ∈ allowed.map quote, Lacks 'Q' t := by
      intro t mem
      obtain ⟨name, allowed, rfl⟩ := List.mem_map.1 mem
      exact lacks_append (lacks_append mark (names name allowed)) mark
    have opening : Lacks 'Q' " IN (" := lacks_ofList (by decide)
    have closing : Lacks 'Q' ")" := lacks_ofList (by decide)
    exact lacks_append (lacks_append (lacks_append front opening)
      (lacks_intercalate comma quoted)) closing
  | flag => exact lacks_append front (lacks_ofList (by decide))
  | atLeast low =>
    have sign : Lacks 'Q' " >= " := lacks_ofList (by decide)
    exact lacks_append (lacks_append front sign) (lacks_toString low)
  | between low high =>
    have between : Lacks 'Q' " BETWEEN " := lacks_ofList (by decide)
    have and : Lacks 'Q' " AND " := lacks_ofList (by decide)
    exact lacks_append (lacks_append (lacks_append (lacks_append front between)
      (lacks_toString low)) and) (lacks_toString high)

namespace EntityType

theorem tableName_injective {entity other : EntityType}
    (same : entity.tableName = other.tableName) : entity = other := by
  have all : ∀ e : EntityType, e ∈ EntityType.all := by intro e; cases e <;> decide
  exact List.inj_on_of_nodup_map Database.tableNames_distinct (all entity) (all other) same

/-- Names of tables are made of small letters. -/
theorem lacks_tableName (entity : EntityType) :
    Lacks 'Q' entity.tableName ∧ Lacks '.' entity.tableName := by
  cases entity <;> exact ⟨lacks_ofList (by decide), lacks_ofList (by decide)⟩

theorem lacks_columns (entity : EntityType) :
    ∀ c ∈ entity.layout.columns, Lacks 'Q' c.name ∧ ∀ k ∈ c.check, k.NamesLackQ := by
  cases entity <;>
    simp only [layout, Column.text, Column.option, Column.integer, Column.real, Column.names,
      Column.flag, Column.belongsTo, Check.NamesLackQ, List.forall_mem_cons, List.not_mem_nil,
      Option.mem_def, Option.some.injEq, reduceCtorEq, forall_eq', IsEmpty.forall_iff,
      implies_true, and_true]
  all_goals repeat' apply And.intro
  all_goals exact lacks_ofList (by decide)

theorem lacks_qualified {entity : EntityType} {column : String} (h : Lacks 'Q' column) :
    Lacks 'Q' (qualified entity column) :=
  lacks_append (lacks_append entity.lacks_tableName.1 (lacks_ofList (by decide))) h

theorem lacks_keys (entity : EntityType) :
    ∀ key ∈ entity.layout.keys, ∀ column ∈ key, Lacks 'Q' column := by
  cases entity <;>
    simp only [layout, List.forall_mem_cons, List.not_mem_nil, IsEmpty.forall_iff, implies_true,
      and_true]
  all_goals repeat' apply And.intro
  all_goals exact lacks_ofList (by decide)

end EntityType

namespace Constraint

theorem lacks_reference : Lacks 'Q' reference.message := by
  have literal : Lacks 'Q' "FOREIGN KEY constraint failed" := lacks_ofList (by decide)
  exact literal

theorem lacks_notNull {entity : EntityType} {column : String} (h : Lacks 'Q' column) :
    Lacks 'Q' (notNull entity column).message := by
  have literal : Lacks 'Q' "NOT NULL constraint failed: " := lacks_ofList (by decide)
  exact lacks_append literal (EntityType.lacks_qualified h)

theorem lacks_check {condition : String} (h : Lacks 'Q' condition) :
    Lacks 'Q' (check condition).message := by
  have literal : Lacks 'Q' "CHECK constraint failed: " := lacks_ofList (by decide)
  exact lacks_append literal h

end Constraint

/-! ## §3. Looking for the wording. -/

theorem Text.occursIn_iff {needle letters : List Char} :
    occursIn needle letters = true ↔ needle <:+: letters := by
  induction letters with
  | nil => simp [occursIn]
  | cons c rest ih =>
    rw [occursIn, Bool.or_eq_true, List.isPrefixOf_iff_prefix, ih, List.infix_cons_iff]

/-- What stands in front of the first dot has to be the same. -/
theorem prefix_dot_iff {front other rest behind : List Char} (plain : '.' ∉ front)
    (otherPlain : '.' ∉ other) :
    front ++ '.' :: rest <+: other ++ '.' :: behind ↔ front = other ∧ rest <+: behind := by
  -- letter by letter, until one of the two reaches its dot: then the other does, too
  induction front generalizing other with
  | nil =>
    cases other with
    | nil => simp
    | cons d other =>
      rw [List.mem_cons, not_or] at otherPlain
      simp [List.cons_prefix_cons, otherPlain.1]
  | cons c front ih =>
    cases other with
    | nil =>
      rw [List.mem_cons, not_or] at plain
      simp [List.cons_prefix_cons, Ne.symm plain.1]
    | cons d other =>
      rw [List.mem_cons, not_or] at plain otherPlain
      rw [List.cons_append, List.cons_append, List.cons_prefix_cons, ih plain.2 otherPlain.2,
        List.cons.injEq, and_assoc]

theorem qualified_toList (entity : EntityType) (column : String) :
    (qualified entity column).toList = entity.tableName.toList ++ '.' :: column.toList := by
  rw [qualified, String.toList_append, String.toList_append, List.append_assoc]
  rfl

theorem unique_toList (entity : EntityType) (columns : List String) :
    (Constraint.unique entity columns).message.toList =
      "UNIQUE constraint failed: ".toList ++
        (", ".intercalate (columns.map (qualified entity))).toList :=
  String.toList_append

theorem labelConstraint_toList :
    labelConstraint.message.toList =
      "UNIQUE constraint failed: ".toList ++ (qualified .project "label").toList := by
  have single : ", ".intercalate [qualified .project "label"] = qualified .project "label" :=
    String.intercalate_singleton
  exact (unique_toList .project ["label"]).trans
    (congrArg (fun s => "UNIQUE constraint failed: ".toList ++ String.toList s) single)

theorem not_infix_of_lacks {letters : List Char} (h : 'Q' ∉ letters) :
    ¬labelConstraint.message.toList <:+: letters := by
  intro found
  have mark : 'Q' ∈ labelConstraint.message.toList := by
    rw [labelConstraint_toList]
    exact List.mem_append_left _ (by simp)
  exact h (found.subset mark)

namespace DatabaseError

/-- Nothing that is looked for stands in the words in front of a constraint. -/
theorem isLabelConflict_constraint_iff {broken : Constraint} :
    (engine (.constraint broken)).isLabelConflict = true ↔
      labelConstraint.message.toList <:+: broken.message.toList ++ "`".toList := by
  show Text.contains ("SQLite failure: `" ++ broken.message ++ "`") _ = true ↔ _
  rw [Text.contains, Text.occursIn_iff, String.toList_append, String.toList_append,
    labelConstraint_toList]
  simp [List.infix_cons_iff]

theorem isLabelConflict_of_lacks {broken : Constraint} (h : Lacks 'Q' broken.message) :
    (engine (.constraint broken)).isLabelConflict = false := by
  rw [Bool.eq_false_iff, Ne, isLabelConflict_constraint_iff]
  refine not_infix_of_lacks ?_
  rw [List.mem_append]
  exact not_or.2 ⟨h, by simp⟩

/-- The wording of a key is understood as a taken label when its columns are written as
those of labels. -/
theorem isLabelConflict_unique_iff {entity : EntityType} {columns : List String}
    (names : ∀ column ∈ columns, Lacks 'Q' column) :
    (engine (.constraint (.unique entity columns))).isLabelConflict = true ↔
      (qualified .project "label").toList <+:
        (", ".intercalate (columns.map (qualified entity))).toList ++ "`".toList := by
  have joined : Lacks 'Q' (", ".intercalate (columns.map (qualified entity))) := by
    refine lacks_intercalate (lacks_ofList (by decide)) fun t mem => ?_
    obtain ⟨column, known, rfl⟩ := List.mem_map.1 mem
    exact EntityType.lacks_qualified (names column known)
  have behind : 'Q' ∉ (", ".intercalate (columns.map (qualified entity))).toList ++ "`".toList := by
    rw [List.mem_append]
    exact not_or.2 ⟨joined, by simp⟩
  -- the wording of a key has only the `Q` it begins with, so it is found there or nowhere
  have nowhere := not_infix_of_lacks behind
  rw [isLabelConflict_constraint_iff, unique_toList]
  rw [labelConstraint_toList] at nowhere ⊢
  generalize (", ".intercalate (columns.map (qualified entity))).toList = rest at nowhere ⊢
  generalize (qualified EntityType.project "label").toList = label at nowhere ⊢
  simp at nowhere
  simp [List.infix_cons_iff, nowhere]

/-- A key is written as the table and its first column, with a dot in between, and
something behind them. -/
theorem exists_joined (entity : EntityType) (column : String) (others : List String) :
    ∃ behind, (", ".intercalate ((column :: others).map (qualified entity))).toList =
      entity.tableName.toList ++ '.' :: (column.toList ++ behind) := by
  cases others with
  | nil =>
    refine ⟨[], ?_⟩
    rw [List.map_singleton, String.intercalate_singleton, qualified_toList, List.append_nil]
  | cons next rest =>
    refine ⟨", ".toList ++ (", ".intercalate ((next :: rest).map (qualified entity))).toList, ?_⟩
    rw [List.map_cons, List.map_cons, String.intercalate_cons_cons, String.toList_append,
      String.toList_append, qualified_toList, List.append_assoc, List.append_assoc,
      List.cons_append]

/-- No key but that on labels is written as it: those of other tables have another name in
front of the dot. -/
theorem isLabelConflict_key_iff {entity : EntityType} {key : List String}
    (known : key ∈ entity.layout.keys) :
    (engine (.constraint (.unique entity key))).isLabelConflict = true ↔
      entity = .project ∧ key = ["label"] := by
  rw [isLabelConflict_unique_iff (entity.lacks_keys key known)]
  by_cases project : entity = .project
  · subst project
    rcases List.mem_pair.1 known with rfl | rfl <;>
      simp [qualified]
  · refine iff_of_false (fun front => ?_) fun label => project label.1
    cases key with
    | nil => exact absurd known (by cases entity <;> decide)
    | cons column others =>
      obtain ⟨behind, joined⟩ := exists_joined entity column others
      rw [qualified_toList, joined, List.append_assoc, List.cons_append] at front
      have same := (prefix_dot_iff EntityType.project.lacks_tableName.2
        entity.lacks_tableName.2).1 front
      exact project (EntityType.tableName_injective (String.toList_injective same.1)).symm

/-- **What is understood as a taken label** is that the key on labels is broken, and no
other constraint. -/
theorem isLabelConflict_iff {broken : Constraint}
    (reported : broken = .reference ∨ ∃ entity : EntityType, broken ∈ entity.constraints) :
    (engine (.constraint broken)).isLabelConflict = true ↔ broken = labelConstraint := by
  have silent {other : Constraint} (h : Lacks 'Q' other.message) :
      ¬(engine (.constraint other)).isLabelConflict = true :=
    Bool.eq_false_iff.1 (isLabelConflict_of_lacks h)
  rcases reported with rfl | ⟨entity, mem⟩
  · exact iff_of_false (silent Constraint.lacks_reference) nofun
  -- only the wordings of keys have a `Q`
  unfold EntityType.constraints at mem
  rcases List.mem_append.1 mem with other | key
  · rcases List.mem_append.1 other with missing | unmet
    · obtain ⟨c, column, rfl⟩ := List.mem_map.1 missing
      have name := (entity.lacks_columns c column).1
      exact iff_of_false (silent (Constraint.lacks_notNull name)) nofun
    · obtain ⟨c, column, mem⟩ := List.mem_flatMap.1 unmet
      obtain ⟨k, check, rfl⟩ := List.mem_map.1 mem
      obtain ⟨name, names⟩ := entity.lacks_columns c column
      have text := Check.lacks_text name (names k (Option.mem_toList.1 check))
      exact iff_of_false (silent (Constraint.lacks_check text)) nofun
  · obtain ⟨key, known, rfl⟩ := List.mem_map.1 key
    rw [isLabelConflict_key_iff known, labelConstraint, Constraint.unique.injEq]

end DatabaseError

end LiteratureReview
