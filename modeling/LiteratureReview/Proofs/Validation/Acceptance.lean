/-
  LiteratureReview.Proofs.Validation.Acceptance
  ─────────────────────────────────────────────
  What the schema of protocols accepts.

  Definition by definition, the schema holds of a value exactly when the
  value is of the form the grammar gives to that type, where a number with
  no fractional part counts as an integer however it is written
  (`IntegerRules.byValue`).  References are followed up to a number: every
  definition says how many it needs, and for categories that grows with the
  depth of the value.

    • `knows_category_iff` — categories, by induction on depth,
    • `grammarErrors_eq_nil_iff` — documents.
-/
import LiteratureReview.Proofs.Schema.ProtocolGrammar

namespace LiteratureReview

open Json Grammar Schema ProtocolGrammar

namespace ProtocolGrammar

variable {known : Known} {v : Json} {n : Nat} {d : SchemaDocument}

/-! ## §1. Definitions of one level. -/

theorem holds_conflictType_iff :
    conflictType.holds known v = true ↔ IsOneOf ["Decision", "Criteria"] v := by
  cases v with
  | text s =>
    by_cases decision : s = "Decision"
    · subst decision
      simp [conflictType, holds, holdsAll, holdCount, ValueType.holds, same_text_iff, IsOneOf]
    · by_cases criteria : s = "Criteria" <;>
        simp [conflictType, holds, holdsAll, holdCount, ValueType.holds, same_text_iff, IsOneOf,
          decision, criteria]
  | _ => simp [conflictType, holds, holdsAll, holdCount, ValueType.holds, IsOneOf]

variable (has : d.Includes document)

include has

theorem knows_succ {name : String} {s : Schema}
    (h : document.definitions.lookup name = some s) :
    d.knows (n + 1) name v = s.holds (d.knows n) v :=
  d.knows_succ (has name s h)

theorem knows_entry_iff : d.knows (n + 1) "NamedEntry" v = true ↔ IsEntry v := by
  rw [knows_succ has (s := entry) rfl, entry, holds_record_iff, isEntry_iff]
  simp only [List.Forall, has_iff, holds_nonEmpty_iff]

theorem knows_phase_iff : d.knows (n + 1) "PhaseDef" v = true ↔ IsPhase v := by
  rw [knows_succ has (s := phase) rfl, phase, holds_record_iff, isPhase_iff]
  simp only [List.Forall, has_iff, May, holds_nonEmpty_iff, holds_textOrNull_iff,
    holds_anyListOrNull_iff,
    holds_identifier_iff]
  tauto

theorem knows_project_iff : d.knows (n + 1) "ProjectDef" v = true ↔ IsProject v := by
  rw [knows_succ has (s := project) rfl, project, holds_record_iff, isProject_iff]
  simp only [List.Forall, has_iff, May, holds_nonEmpty_iff, holds_textOrNull_iff,
    holds_identifier_iff]
  tauto

theorem knows_response_iff : d.knows (n + 1) "QaResponse" v = true ↔ IsResponse v := by
  rw [knows_succ has (s := response) rfl, response, holds_record_iff, isResponse_iff]
  simp only [List.Forall, has_iff, holds_nonEmpty_iff, holds_numeric_iff]
  tauto

theorem knows_quality_iff : d.knows (n + 2) "QaConfig" v = true ↔ IsQuality v := by
  rw [knows_succ has (s := quality) rfl, quality, holds_record_iff, isQuality_iff]
  simp only [List.Forall, has_iff, holds_nonEmpty_iff, holds_numeric_iff, holds_listOf_iff,
    holds_reference,
    knows_response_iff has]
  tauto

theorem knows_screening_iff :
    d.knows (n + 2) "ScreeningConfig" v = true ↔ IsScreening .byValue v := by
  have conflict : ∀ w, d.knows (n + 1) "ConflictType" w = true ↔
      IsOneOf ["Decision", "Criteria"] w :=
    fun w => by rw [knows_succ has (s := conflictType) rfl, holds_conflictType_iff]
  have resolution : ∀ w, d.knows (n + 1) "ConflictResolution" w = true ↔
      IsOneOf ["Majority", "Unanimity"] w :=
    fun w => by rw [knows_succ has (s := oneOfTexts _) rfl, holds_oneOfTexts_iff]
  have mode : ∀ w, d.knows (n + 1) "ValidationAssignmentMode" w = true ↔
      IsOneOf ["Normal", "Veto", "Info"] w :=
    fun w => by rw [knows_succ has (s := oneOfTexts _) rfl, holds_oneOfTexts_iff]
  rw [knows_succ has (s := screening) rfl, screening, holds_record_iff, isScreening_iff]
  simp only [List.Forall, has_iff, May, holds_listOf_iff, holds_anyListOrNull_iff, holds_whole_iff,
    holds_wholeOrNull_iff, holds_reference, holds_referenceOrNull_iff, conflict, resolution,
    mode, knows_entry_iff has, knows_phase_iff has, IntegerRules.byValue]
  tauto

theorem knows_chart_iff :
    d.knows (n + 1) "Chart" v = true ↔ IsOneOf ["bar", "pie", "line"] v := by
  rw [knows_succ has (s := oneOfTexts _) rfl, holds_oneOfTexts_iff]

theorem knows_simpleReport_iff :
    d.knows (n + 2) "SimpleReport" v = true ↔ IsReportOn v := by
  rw [knows_succ has (s := simpleReport) rfl, simpleReport, holds_record_iff, isReportOn_iff]
  simp only [List.Forall, has_iff, May, holds_textual_iff, holds_textOrNull_iff,
    holds_identifier_iff, holds_listOf_iff, holds_reference, knows_chart_iff has]
  tauto

theorem knows_comparedReport_iff :
    d.knows (n + 2) "ComparedReport" v = true ↔ IsReportOn v ∧ v.Has "reference" IsName := by
  rw [knows_succ has (s := comparedReport) rfl, comparedReport, holds_record_iff, isReportOn_iff]
  simp only [List.Forall, has_iff, May, holds_textual_iff, holds_textOrNull_iff,
    holds_identifier_iff, holds_listOf_iff, holds_reference, knows_chart_iff has]
  tauto

theorem knows_report_iff : d.knows (n + 3) "Report" v = true ↔ IsReport v := by
  rw [knows_succ has (s := report) rfl, report, holds_taggedUnion_iff]
  constructor
  · rintro ⟨-, name, mem, found, cases⟩
    simp only [List.map_cons, List.map_nil, List.mem_cons, List.not_mem_nil, or_false] at mem
    rcases mem with rfl | rfl
    · have content := cases ("Simple", "SimpleReport") (by simp) rfl
      exact .simple found ((knows_simpleReport_iff has).1 content)
    · have content := cases ("Compared", "ComparedReport") (by simp) rfl
      exact .compared found ((knows_comparedReport_iff has).1 content).1
        ((knows_comparedReport_iff has).1 content).2
  · rintro (⟨tag, on⟩ | ⟨tag, on, reference⟩)
    · refine ⟨on.object, "Simple", by simp, tag, ?_⟩
      simp [(knows_simpleReport_iff has).2 on]
    · refine ⟨on.object, "Compared", by simp, tag, ?_⟩
      simp [(knows_comparedReport_iff has).2 ⟨on, reference⟩]

/-! ## §2. Categories. -/

/-- The definition of categories holds of what is directly below one. -/
def ChildrenKnown (known : Known) (v : Json) : Prop :=
  v.May "sub_categories" (IsListOf 1 fun c => known "Category" c = true)

omit has in
theorem childrenKnown_iff :
    ChildrenKnown known v ↔
      v.May "sub_categories" (IsListOf 1 fun _ => True) ∧
        ∀ c, IsChild c v → known "Category" c = true := by
  constructor
  · intro each
    refine ⟨fun w found => ?_, ?_⟩
    · rcases each w found with absent | ⟨items, list, some, -⟩
      · exact .inl absent
      · exact .inr ⟨items, list, some, fun _ _ => trivial⟩
    · rintro c ⟨items, found, mem⟩
      rcases each _ found with absent | ⟨items', list, -, all⟩
      · cases absent
      · cases list
        exact all c mem
  · rintro ⟨lists, each⟩ w found
    rcases lists w found with absent | ⟨items, rfl, some, -⟩
    · exact .inl absent
    · exact .inr ⟨items, rfl, some, fun c mem => each c ⟨items, found, mem⟩⟩

theorem knows_scalarType_iff :
    d.knows (n + 1) "ScalarType" v = true ↔ IsOneOf scalarNames v := by
  rw [knows_succ has (s := oneOfTexts _) rfl, holds_oneOfTexts_iff]
  rfl

theorem knows_simpleCategory_iff :
    d.knows (n + 2) "SimpleCategory" v = true ↔
      HasHead .byValue v ∧ ChildrenKnown (d.knows (n + 1)) v ∧
        v.Has "type" (IsOneOf scalarNames) ∧ v.May "max_char" IntegerRules.byValue.amount ∧
          v.May "pattern" IsText := by
  rw [knows_succ has (s := simpleCategory) rfl, simpleCategory, holds_record_iff, hasHead_iff]
  simp only [List.Forall, has_iff, May, children, ChildrenKnown, holds_always, implies_true,
    holds_boolean_iff, holds_textOrNull_iff, holds_identifier_iff, holds_listOrNull_iff,
    holds_reference, holds_wholeOrNull_iff, holds_wholeFromOrNull_iff, knows_scalarType_iff has,
    IntegerRules.byValue]
  tauto

theorem knows_listCategory_iff :
    d.knows (n + 2) "ListCategory" v = true ↔
      HasHead .byValue v ∧ ChildrenKnown (d.knows (n + 1)) v ∧
        v.Has "values" (IsListOf 2 IsEntry) := by
  rw [knows_succ has (s := listCategory) rfl, listCategory, holds_record_iff, hasHead_iff]
  simp only [List.Forall, has_iff, May, children, ChildrenKnown, holds_boolean_iff,
    holds_textOrNull_iff, holds_identifier_iff, holds_listOf_iff, holds_listOrNull_iff,
    holds_reference, holds_wholeFromOrNull_iff, knows_entry_iff has, IntegerRules.byValue]
  tauto

theorem knows_independentList_iff :
    d.knows (n + 2) "IndependentList" v = true ↔
      HasHead .byValue v ∧ ChildrenKnown (d.knows (n + 1)) v ∧
        v.May "reference_name" IsText ∧ v.Has "initial_values" (IsListOf 1 IsEntry) := by
  rw [knows_succ has (s := independentList) rfl, independentList, holds_record_iff, hasHead_iff]
  simp only [List.Forall, has_iff, May, children, ChildrenKnown, holds_boolean_iff,
    holds_textOrNull_iff, holds_identifier_iff, holds_listOf_iff, holds_listOrNull_iff,
    holds_reference, holds_wholeFromOrNull_iff, knows_entry_iff has, IntegerRules.byValue]
  tauto

theorem knows_dependentList_iff :
    d.knows (n + 2) "DependentList" v = true ↔
      HasHead .byValue v ∧ ChildrenKnown (d.knows (n + 1)) v ∧
        v.Has "depends_on" IsName := by
  rw [knows_succ has (s := dependentList) rfl, dependentList, holds_record_iff, hasHead_iff]
  simp only [List.Forall, has_iff, May, children, ChildrenKnown, holds_boolean_iff,
    holds_textOrNull_iff, holds_identifier_iff, holds_listOrNull_iff, holds_reference,
    holds_wholeFromOrNull_iff, IntegerRules.byValue]
  tauto

/-- A dynamic list of either kind. -/
theorem knows_dynamicList_iff :
    d.knows (n + 3) "DynamicList" v = true ↔
      HasHead .byValue v ∧ ChildrenKnown (d.knows (n + 1)) v ∧
        ((v.get? "dynamic_subtype" = some (.text "Independent") ∧
            v.May "reference_name" IsText ∧ v.Has "initial_values" (IsListOf 1 IsEntry)) ∨
          (v.get? "dynamic_subtype" = some (.text "Dependent") ∧
            v.Has "depends_on" IsName)) := by
  rw [knows_succ has (s := dynamicList) rfl, dynamicList, holds_taggedUnion_iff]
  constructor
  · rintro ⟨-, name, mem, found, cases⟩
    simp only [List.map_cons, List.map_nil, List.mem_cons, List.not_mem_nil, or_false] at mem
    rcases mem with rfl | rfl
    · have content := cases ("Independent", "IndependentList") (by simp) rfl
      obtain ⟨head, below, kind⟩ := (knows_independentList_iff has).1 content
      exact ⟨head, below, .inl ⟨found, kind⟩⟩
    · have content := cases ("Dependent", "DependentList") (by simp) rfl
      obtain ⟨head, below, kind⟩ := (knows_dependentList_iff has).1 content
      exact ⟨head, below, .inr ⟨found, kind⟩⟩
  · rintro ⟨head, below, ⟨tag, kind⟩ | ⟨tag, kind⟩⟩
    · refine ⟨head.object, "Independent", by simp, tag, ?_⟩
      simp [(knows_independentList_iff has).2 ⟨head, below, kind⟩]
    · refine ⟨head.object, "Dependent", by simp, tag, ?_⟩
      simp [(knows_dependentList_iff has).2 ⟨head, below, kind⟩]

/-- One level of a category.  What is below is looked at with one or two
references less, whence the children are known at both numbers. -/
theorem knows_category_step
    (below : ∀ m, n + 1 ≤ m → ∀ c, IsChild c v →
      (d.knows m "Category" c = true ↔ IsCategory .byValue c)) :
    d.knows (n + 4) "Category" v = true ↔ IsCategory .byValue v := by
  have children : ∀ m, n + 1 ≤ m → (ChildrenKnown (d.knows m) v ↔
      v.May "sub_categories" (IsListOf 1 fun _ => True) ∧
        ∀ c, IsChild c v → IsCategory .byValue c) := by
    intro m hm
    rw [childrenKnown_iff]
    exact and_congr_right fun _ => forall₂_congr fun c child => below m hm c child
  rw [knows_succ has (s := category) rfl, category, holds_taggedUnion_iff]
  constructor
  · rintro ⟨-, name, mem, found, cases⟩
    simp only [List.map_cons, List.map_nil, List.mem_cons, List.not_mem_nil, or_false] at mem
    -- the tag names the definition that the value has to fit
    rcases mem with rfl | rfl | rfl
    · have content := cases ("Simple", "SimpleCategory") (by simp) rfl
      obtain ⟨head, known, type, maxChar, pattern⟩ := (knows_simpleCategory_iff has).1 content
      obtain ⟨lists, each⟩ := (children _ (by omega)).1 known
      exact .node head (.simple found type maxChar pattern) lists each
    · have content := cases ("List", "ListCategory") (by simp) rfl
      obtain ⟨head, known, values⟩ := (knows_listCategory_iff has).1 content
      obtain ⟨lists, each⟩ := (children _ (by omega)).1 known
      exact .node head (.list found values) lists each
    · have content := cases ("DynamicList", "DynamicList") (by simp) rfl
      obtain ⟨head, known, kind⟩ := (knows_dynamicList_iff has).1 content
      obtain ⟨lists, each⟩ := (children _ (by omega)).1 known
      rcases kind with ⟨subtype, referenceName, values⟩ | ⟨subtype, dependsOn⟩
      · exact .node head (.independent found subtype referenceName values) lists each
      · exact .node head (.dependent found subtype dependsOn) lists each
  · rintro ⟨head, kind, lists, each⟩
    have known : ∀ m, n + 1 ≤ m → ChildrenKnown (d.knows m) v :=
      fun m hm => (children m hm).2 ⟨lists, each⟩
    rcases kind with ⟨tag, type, maxChar, pattern⟩ | ⟨tag, values⟩ |
      ⟨tag, subtype, referenceName, values⟩ | ⟨tag, subtype, dependsOn⟩
    · have content : d.knows (n + 3) "SimpleCategory" v = true :=
        (knows_simpleCategory_iff has).2 ⟨head, known (n + 2) (by omega), type, maxChar, pattern⟩
      exact ⟨head.object, "Simple", by simp, tag, by simp [content]⟩
    · have content : d.knows (n + 3) "ListCategory" v = true :=
        (knows_listCategory_iff has).2 ⟨head, known (n + 2) (by omega), values⟩
      exact ⟨head.object, "List", by simp, tag, by simp [content]⟩
    · have content : d.knows (n + 3) "DynamicList" v = true :=
        (knows_dynamicList_iff has).2
          ⟨head, known (n + 1) (by omega), .inl ⟨subtype, referenceName, values⟩⟩
      exact ⟨head.object, "DynamicList", by simp, tag, by simp [content]⟩
    · have content : d.knows (n + 3) "DynamicList" v = true :=
        (knows_dynamicList_iff has).2 ⟨head, known (n + 1) (by omega), .inr ⟨subtype, dependsOn⟩⟩
      exact ⟨head.object, "DynamicList", by simp, tag, by simp [content]⟩

/-- **The schema of categories holds of categories and of nothing else.**
Two levels of depth cost three references at most. -/
theorem knows_category_iff (v : Json) (enough : 3 * v.depth + 4 ≤ n) :
    d.knows n "Category" v = true ↔ IsCategory .byValue v := by
  induction hd : v.depth using Nat.strongRecOn generalizing v n with
  | ind d ih =>
    obtain ⟨m, rfl⟩ : ∃ m, n = m + 4 := ⟨n - 4, by omega⟩
    apply knows_category_step has
    intro k hk c child
    have shallower := depth_child_lt child
    exact ih c.depth (by omega) c (by omega) rfl

/-! ## §3. Documents. -/

/-- **The root schema of protocols holds of protocols and of nothing else**, in whatever
document it is looked at, as long as that has the definitions. -/
theorem holds_root_iff (enough : 3 * v.depth + 3 ≤ n) :
    root.holds (d.knows n) v = true ↔ IsProtocol .byValue v := by
  obtain ⟨m, rfl⟩ : ∃ m, n = m + 3 := ⟨n - 3, by omega⟩
  have categories : ∀ w, v.get? "category" = some w →
      (IsListOf 1 (fun c => d.knows (m + 3) "Category" c = true) w ↔
        IsListOf 1 (IsCategory .byValue) w) := by
    intro w found
    have outer := depth_get?_lt found
    apply isListOf_congr
    rintro items rfl c mem
    have inner := depth_item_lt mem
    exact knows_category_iff has c (by omega)
  rw [root, holds_record_iff, isProtocol_iff, ← has_congr categories]
  simp only [List.Forall, has_iff, May, holds_listOf_iff, holds_anyListOrNull_iff, holds_reference,
    holds_referenceOrNull_iff, knows_project_iff has, knows_screening_iff has,
    knows_quality_iff has, knows_report_iff has]
  tauto

omit has in
/-- **A document has no error of the grammar exactly when it is a protocol
whose integers are integers by value.** -/
theorem violations_eq_nil_iff : Validator.grammar.violations v = [] ↔ IsProtocol .byValue v := by
  have budget : document.references v = (v.depth + 1) * 21 := rfl
  rw [SchemaDocument.violations_eq_nil_iff, grammar_eq]
  exact holds_root_iff (fun _ _ found => found) (by omega)

end ProtocolGrammar

end LiteratureReview
