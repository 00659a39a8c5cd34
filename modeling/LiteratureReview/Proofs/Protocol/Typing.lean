/-
  LiteratureReview.Proofs.Protocol.Typing
  ───────────────────────────────────────
  Which documents of the right form are read as protocols.

  A value of the form the grammar gives to a type is read as that type,
  but for its integers: a decoder wants them written without a fraction and
  within the word they are stored in.  So for a document whose integers are
  integers by value, being read comes to the same as being a document whose
  integers are written as such.

    • `written_eq` — the two readings of integers differ by `IsWord` only,
    • `reads_category_iff` — categories, by induction on depth,
    • `reads_protocol_iff` — documents.
-/
import LiteratureReview.Protocol.Document
import LiteratureReview.Proofs.Json.Records
import LiteratureReview.Proofs.Protocol.Grammar

namespace LiteratureReview

open Json Grammar

/-! ## §1. Integers by their value and as they are written. -/

namespace Grammar

variable {v : Json}

/-- A number that is written as an integer and fits a signed word of
sixty-four bits. -/
def IsWord (v : Json) : Prop := ∃ i, v = .number (.int i) ∧ i ≤ 9223372036854775807

/-- The rules, and a further demand on every integer. -/
def IntegerRules.and (rules : IntegerRules) (Q : Json → Prop) : IntegerRules where
  amount v := rules.amount v ∧ Q v
  percentage v := rules.percentage v ∧ Q v
  valueCount v := rules.valueCount v ∧ Q v

theorem less_int_iff {i j : Int} : (Number.int i).less (.int j) = false ↔ j ≤ i := by
  simp [Number.less, Number.numerator, Number.denominator]

theorem isWhole_int_iff {low : Int} {high : Option Int} {i : Int} :
    IsWhole low high (.number (.int i)) ↔ low ≤ i ∧ ∀ h ∈ high, i ≤ h := by
  constructor
  · rintro ⟨n, same, -, least, most⟩
    cases same
    exact ⟨less_int_iff.1 least, fun h mem => less_int_iff.1 (most h mem)⟩
  · rintro ⟨least, most⟩
    exact ⟨.int i, rfl, rfl, less_int_iff.2 least, fun h mem => less_int_iff.2 (most h mem)⟩

/-- Within a range of words an integer is written as one when it is a word. -/
theorem isInteger_iff {low high : Int} (small : high ≤ 9223372036854775807) :
    IsInteger low high v ↔ IsWhole low (some high) v ∧ IsWord v := by
  constructor
  · rintro ⟨i, rfl, least, most⟩
    exact ⟨isWhole_int_iff.2 ⟨least, by simpa using most⟩, i, rfl, by omega⟩
  · rintro ⟨whole, i, rfl, -⟩
    obtain ⟨least, most⟩ := isWhole_int_iff.1 whole
    exact ⟨i, rfl, least, most high rfl⟩

theorem written_eq : IntegerRules.written = IntegerRules.byValue.and IsWord := by
  have amount : IsInteger 1 4294967295 = fun v => IsWhole 1 (some 4294967295) v ∧ IsWord v :=
    funext fun v => propext (isInteger_iff (by decide))
  have percentage : IsInteger 0 100 = fun v => IsWhole 0 (some 100) v ∧ IsWord v :=
    funext fun v => propext (isInteger_iff (by decide))
  have valueCount : IsInteger (-1) 9223372036854775807 =
      fun v => IsWhole (-1) none v ∧ IsWord v := by
    funext v
    apply propext
    constructor
    · rintro ⟨i, rfl, least, most⟩
      exact ⟨isWhole_int_iff.2 ⟨least, by simp⟩, i, rfl, most⟩
    · rintro ⟨whole, i, rfl, most⟩
      exact ⟨i, rfl, (isWhole_int_iff.1 whole).1, most⟩
  simp only [IntegerRules.written, IntegerRules.byValue, IntegerRules.and, amount, percentage,
    valueCount]

/-- Wider bounds read the same integers of a range. -/
theorem isInteger_of_whole {low high low' high' : Int} (h : IsWhole low (some high) v)
    (below : low' ≤ low) (above : high ≤ high') :
    IsInteger low' high' v ↔ IsInteger low high v := by
  constructor
  · rintro ⟨i, rfl, -, -⟩
    obtain ⟨least, most⟩ := isWhole_int_iff.1 h
    exact ⟨i, rfl, least, most high rfl⟩
  · rintro ⟨i, rfl, least, most⟩
    exact ⟨i, rfl, by omega, by omega⟩

theorem isInteger_of_wholeFrom {low high low' : Int} (h : IsWhole low none v)
    (below : low' ≤ low) : IsInteger low' high v ↔ IsInteger low high v := by
  constructor
  · rintro ⟨i, rfl, -, most⟩
    exact ⟨i, rfl, (isWhole_int_iff.1 h).1, most⟩
  · rintro ⟨i, rfl, least, most⟩
    exact ⟨i, rfl, by omega, most⟩

end Grammar

/-! ## §2. Scalars and flat sections. -/

section Flat

variable {at_ : Standing} {v : Json}

theorem reads_identifier_iff : Identifier.decode.Reads at_ v ↔ IsName v := by
  rw [Identifier.decode, Decoder.reads_checkedText_iff, IsName]
  refine exists_congr fun s => and_congr_right fun _ => ?_
  by_cases valid : isIdentifier s = true <;> simp [Identifier.parse, valid, Except.mapError]

theorem reads_nonEmptyText_iff : NonEmptyText.decode.Reads at_ v ↔ IsNonEmptyText v := by
  rw [NonEmptyText.decode, Decoder.reads_checkedText_iff, IsNonEmptyText]
  refine exists_congr fun s => and_congr_right fun _ => ?_
  by_cases empty : s = "" <;> simp [NonEmptyText.parse, empty, Except.mapError]

theorem reads_listOf {α : Type} {d : Decoder α} {least : Nat} {P : Json → Prop}
    (proper : v.IsProper) (h : IsListOf least P v)
    (read : ∀ w, w.IsProper → P w → d.Reads at_ w) : (Decoder.list d).Reads at_ v := by
  obtain ⟨items, rfl, -, each⟩ := h
  rw [isProper_list_iff] at proper
  exact Decoder.reads_list_iff.2 ⟨items, rfl, fun w mem => read w (proper w mem) (each w mem)⟩

theorem reads_choice {α : Type} {table : List (String × α)} {names : List String}
    (h : IsOneOf names v) (known : table.map (·.1) = names) :
    (Decoder.choice table).Reads at_ v := by
  obtain ⟨s, mem, rfl⟩ := h
  exact Decoder.reads_choice_of_mem (known ▸ mem)

section Fields

variable {α : Type} {t : RecordType} {members : List (String × Json)} {name : String}
  {d : Decoder α} {P : Json → Prop}

theorem Fields.done_required_of (proper : (Json.object members).IsProper)
    (h : (Json.object members).Has name P) (read : ∀ w, w.IsProper → P w → d.Reads at_ w) :
    (Fields.required ⟨t, at_, .named members⟩ name d).Done := by
  rw [Fields.done_required_iff _ (isProper_object_iff.1 proper).1]
  obtain ⟨w, found, hw⟩ := h
  exact ⟨w, found, read w (proper.get? found) hw⟩

theorem Fields.done_optional_of (proper : (Json.object members).IsProper)
    (h : (Json.object members).May name P) (read : ∀ w, w.IsProper → P w → d.Reads at_ w) :
    (Fields.optional ⟨t, at_, .named members⟩ name d).Done := by
  rw [Fields.done_optional_iff _ (isProper_object_iff.1 proper).1]
  exact fun w found => (h w found).imp_right (read w (proper.get? found))

end Fields

theorem reads_entry (proper : v.IsProper) (h : IsEntry v) : NamedEntry.decode.Reads at_ v := by
  obtain ⟨⟨members, rfl⟩, name⟩ := h
  rw [NamedEntry.decode, RecordType.reads_decode_iff, Reading.done_map_iff]
  exact Fields.done_required_of proper name fun _ _ => reads_nonEmptyText_iff.2

theorem reads_entries {least : Nat} (proper : v.IsProper) (h : IsListOf least IsEntry v) :
    (Decoder.list NamedEntry.decode).Reads at_ v :=
  reads_listOf proper h fun _ => reads_entry

theorem reads_project (proper : v.IsProper) (h : IsProject v) :
    ProjectSection.decode.Reads at_ v := by
  obtain ⟨⟨members, rfl⟩, shortName, name, description⟩ := h
  rw [ProjectSection.decode, RecordType.reads_decode_iff, Reading.done_seq_iff,
    Reading.done_seq_iff, Reading.done_map_iff]
  refine ⟨⟨?shortName, ?name⟩, ?description⟩
  case shortName => exact Fields.done_required_of proper shortName fun _ _ => reads_identifier_iff.2
  case name => exact Fields.done_required_of proper name fun _ _ => reads_nonEmptyText_iff.2
  case description =>
    exact Fields.done_optional_of proper description fun _ _ => Decoder.reads_text_iff.2

theorem reads_phase (proper : v.IsProper) (h : IsPhase v) : PhaseSection.decode.Reads at_ v := by
  obtain ⟨⟨members, rfl⟩, title, description, fields⟩ := h
  rw [PhaseSection.decode, RecordType.reads_decode_iff, Reading.done_seq_iff,
    Reading.done_seq_iff, Reading.done_map_iff]
  refine ⟨⟨?title, ?description⟩, ?fields⟩
  case title => exact Fields.done_required_of proper title fun _ _ => reads_nonEmptyText_iff.2
  case description =>
    exact Fields.done_optional_of proper description fun _ _ => Decoder.reads_text_iff.2
  case fields =>
    exact Fields.done_optional_of proper fields fun w hw names =>
      reads_listOf hw names fun _ _ => reads_identifier_iff.2

theorem reads_response (proper : v.IsProper) (h : IsResponse v) :
    ResponseSection.decode.Reads at_ v := by
  obtain ⟨⟨members, rfl⟩, title, score⟩ := h
  rw [ResponseSection.decode, RecordType.reads_decode_iff, Reading.done_seq_iff,
    Reading.done_map_iff]
  refine ⟨?title, ?score⟩
  case title => exact Fields.done_required_of proper title fun _ _ => reads_nonEmptyText_iff.2
  case score => exact Fields.done_required_of proper score fun _ _ => Decoder.reads_double_iff.2

theorem reads_quality (proper : v.IsProper) (h : IsQuality v) :
    QualitySection.decode.Reads at_ v := by
  obtain ⟨⟨members, rfl⟩, questions, responses, minScore⟩ := h
  rw [QualitySection.decode, RecordType.reads_decode_iff, Reading.done_seq_iff,
    Reading.done_seq_iff, Reading.done_map_iff]
  refine ⟨⟨?questions, ?responses⟩, ?minScore⟩
  case questions =>
    exact Fields.done_required_of proper questions fun w hw texts =>
      reads_listOf hw texts fun _ _ => reads_nonEmptyText_iff.2
  case responses =>
    exact Fields.done_required_of proper responses fun w hw list =>
      reads_listOf hw list fun _ => reads_response
  case minScore =>
    exact Fields.done_required_of proper minScore fun _ _ => Decoder.reads_double_iff.2

/-- Without its tag a value has the same fields and is still proper. -/
theorem isProper_without {members : List (String × Json)} {tag : String}
    (proper : (Json.object members).IsProper) : (Json.object (without tag members)).IsProper := by
  rw [isProper_object_iff] at proper ⊢
  exact ⟨keys_without proper.1, fun m mem => proper.2 m (List.mem_of_mem_filter mem)⟩

theorem reads_charts (proper : v.IsProper)
    (h : IsListOf 1 (IsOneOf ["bar", "pie", "line"]) v) :
    (Decoder.list (Decoder.choice Chart.table)).Reads at_ v :=
  reads_listOf proper h fun _ _ named => reads_choice named rfl

theorem reads_simpleReport {members : List (String × Json)}
    (proper : (Json.object members).IsProper) (on : IsReportOn (.object members)) :
    Report.decodeSimple.Reads .held (.object (without Report.union.tag members)) := by
  have rest : (Json.object (without Report.union.tag members)).IsProper := isProper_without proper
  obtain ⟨-, name, title, value, charts⟩ := on
  rw [Report.decodeSimple, RecordType.reads_decode_iff, Reading.done_seq_iff,
    Reading.done_seq_iff, Reading.done_seq_iff, Reading.done_map_iff]
  refine ⟨⟨⟨?name, ?title⟩, ?value⟩, ?charts⟩
  case name =>
    exact Fields.done_required_of rest ((has_without (by decide)).2 name)
      fun _ _ => Decoder.reads_text_iff.2
  case title =>
    exact Fields.done_optional_of rest ((may_without (by decide)).2 title)
      fun _ _ => Decoder.reads_text_iff.2
  case value =>
    exact Fields.done_required_of rest ((has_without (by decide)).2 value)
      fun _ _ => reads_identifier_iff.2
  case charts =>
    exact Fields.done_required_of rest ((has_without (by decide)).2 charts) fun _ => reads_charts

theorem reads_comparedReport {members : List (String × Json)}
    (proper : (Json.object members).IsProper) (on : IsReportOn (.object members))
    (reference : (Json.object members).Has "reference" IsName) :
    Report.decodeCompared.Reads .held (.object (without Report.union.tag members)) := by
  have rest : (Json.object (without Report.union.tag members)).IsProper := isProper_without proper
  obtain ⟨-, name, title, value, charts⟩ := on
  rw [Report.decodeCompared, RecordType.reads_decode_iff, Reading.done_seq_iff,
    Reading.done_seq_iff, Reading.done_seq_iff, Reading.done_seq_iff, Reading.done_map_iff]
  refine ⟨⟨⟨⟨?name, ?title⟩, ?value⟩, ?reference⟩, ?charts⟩
  case name =>
    exact Fields.done_required_of rest ((has_without (by decide)).2 name)
      fun _ _ => Decoder.reads_text_iff.2
  case title =>
    exact Fields.done_optional_of rest ((may_without (by decide)).2 title)
      fun _ _ => Decoder.reads_text_iff.2
  case value =>
    exact Fields.done_required_of rest ((has_without (by decide)).2 value)
      fun _ _ => reads_identifier_iff.2
  case reference =>
    exact Fields.done_required_of rest ((has_without (by decide)).2 reference)
      fun _ _ => reads_identifier_iff.2
  case charts =>
    exact Fields.done_required_of rest ((has_without (by decide)).2 charts) fun _ => reads_charts

/-- The tag decides which of the two readers is used, and is taken off. -/
theorem decodeReport_eq {members : List (String × Json)} {name : String}
    (proper : (Json.object members).IsProper)
    (tag : (Json.object members).get? "report_type" = some (.text name))
    (known : name ∈ Report.union.variants) :
    Report.decode at_ (.object members) =
      if name = "Simple" then
        Report.decodeSimple .held (.object (without Report.union.tag members))
      else Report.decodeCompared .held (.object (without Report.union.tag members)) := by
  have split := Report.union.split_object at_ (isProper_object_iff.1 proper).1 tag known
  unfold Report.decode
  rw [split]
  rfl

theorem reads_report (proper : v.IsProper) (h : IsReport v) : Report.decode.Reads at_ v := by
  rcases h with ⟨tag, on⟩ | ⟨tag, on, reference⟩
  · obtain ⟨members, rfl⟩ := on.object
    obtain ⟨r, read⟩ := reads_simpleReport proper on
    exact ⟨r, (decodeReport_eq proper tag (by decide)).trans read⟩
  · obtain ⟨members, rfl⟩ := on.object
    obtain ⟨r, read⟩ := reads_comparedReport proper on reference
    exact ⟨r, (decodeReport_eq proper tag (by decide)).trans read⟩

/-! ## §3. Sections with integers. -/

theorem reads_u32_iff {low high : Int} (h : IsWhole low (some high) v) (least : 0 ≤ low)
    (most : high ≤ 4294967295) : Decoder.u32.Reads at_ v ↔ IsInteger low high v := by
  rw [Decoder.reads_u32_iff]
  exact isInteger_of_whole h least most

theorem reads_i64_iff {low : Int} (h : IsWhole low none v) (least : -9223372036854775808 ≤ low) :
    Decoder.i64.Reads at_ v ↔ IsInteger low 9223372036854775807 v := by
  rw [Decoder.reads_i64_iff]
  exact isInteger_of_wholeFrom h least

/-- Of a screening section of the right form only the integers decide. -/
theorem reads_screening_iff (proper : v.IsProper) (h : IsScreening .byValue v) :
    ScreeningSection.decode.Reads at_ v ↔ IsScreening .written v := by
  obtain ⟨⟨members, rfl⟩, reviewPerPaper, conflictType, conflictResolution, exclusionCriteria,
    sourcePapers, searchStrategy, validationPercentage, assignmentMode, phases⟩ := h
  have distinct := (isProper_object_iff.1 proper).1
  have amount : (Json.object members).Has "review_per_paper" (Decoder.u32.Reads at_) ↔
      (Json.object members).Has "review_per_paper" IntegerRules.written.amount :=
    has_congr_of reviewPerPaper fun w hw => reads_u32_iff hw (by decide) (by decide)
  have percentage : (Json.object members).May "validation_percentage" (Decoder.u32.Reads at_) ↔
      (Json.object members).May "validation_percentage" IntegerRules.written.percentage :=
    may_congr_of validationPercentage fun w hw => reads_u32_iff hw (by decide) (by decide)
  rw [ScreeningSection.decode, RecordType.reads_decode_iff]
  simp only [Reading.done_seq_iff, Reading.done_map_iff]
  rw [Fields.done_required_iff "review_per_paper" distinct, amount,
    Fields.done_optional_iff "validation_percentage" distinct, percentage]
  constructor
  · rintro ⟨⟨⟨⟨⟨⟨⟨⟨amount, -⟩, -⟩, -⟩, -⟩, -⟩, percentage⟩, -⟩, -⟩
    exact ⟨⟨members, rfl⟩, amount, conflictType, conflictResolution, exclusionCriteria,
      sourcePapers, searchStrategy, percentage, assignmentMode, phases⟩
  · rintro ⟨-, amount, -, -, -, -, -, percentage, -, -⟩
    refine ⟨⟨⟨⟨⟨⟨⟨⟨amount, ?conflictType⟩, ?conflictResolution⟩, ?exclusionCriteria⟩,
      ?sourcePapers⟩, ?searchStrategy⟩, percentage⟩, ?assignmentMode⟩, ?phases⟩
    case conflictType =>
      exact Fields.done_required_of proper conflictType fun _ _ named => reads_choice named rfl
    case conflictResolution =>
      exact Fields.done_required_of proper conflictResolution
        fun _ _ named => reads_choice named rfl
    case exclusionCriteria =>
      exact Fields.done_required_of proper exclusionCriteria fun _ => reads_entries
    case sourcePapers => exact Fields.done_optional_of proper sourcePapers fun _ => reads_entries
    case searchStrategy =>
      exact Fields.done_optional_of proper searchStrategy fun _ => reads_entries
    case assignmentMode =>
      exact Fields.done_optional_of proper assignmentMode fun _ _ named => reads_choice named rfl
    case phases =>
      exact Fields.done_optional_of proper phases fun w hw list =>
        reads_listOf hw list fun _ => reads_phase

end Flat

/-! ## §4. Categories. -/

section Categories

variable {at_ : Standing} {v : Json} {members : List (String × Json)} {t : RecordType}

/-- What is left of a category when its tags are taken off. -/
structure Untagged (v : Json) (members : List (String × Json)) : Prop where
  proper : (Json.object members).IsProper
  same : ∀ key, key ≠ "category_type" → key ≠ "dynamic_subtype" →
    (Json.object members).get? key = v.get? key

theorem Untagged.has_iff (h : Untagged v members) {key : String} {P : Json → Prop}
    (tag : key ≠ "category_type") (subtype : key ≠ "dynamic_subtype") :
    (Json.object members).Has key P ↔ v.Has key P := by
  unfold Has
  rw [h.same key tag subtype]

theorem Untagged.may_iff (h : Untagged v members) {key : String} {P : Json → Prop}
    (tag : key ≠ "category_type") (subtype : key ≠ "dynamic_subtype") :
    (Json.object members).May key P ↔ v.May key P := by
  unfold May
  rw [h.same key tag subtype]

theorem done_headOf_iff (u : Untagged v members) (h : HasHead .byValue v) :
    (Category.headOf ⟨t, at_, .named members⟩).Done ↔ HasHead .written v := by
  obtain ⟨object, name, title, mandatory, numberOfValues⟩ := h
  have distinct := (isProper_object_iff.1 u.proper).1
  have count : (Json.object members).May "numberOfValues" (Decoder.i64.Reads at_) ↔
      v.May "numberOfValues" IntegerRules.written.valueCount := by
    rw [u.may_iff (by decide) (by decide)]
    exact may_congr_of numberOfValues fun w hw => reads_i64_iff hw (by decide)
  simp only [Category.headOf, Reading.done_seq_iff, Reading.done_map_iff]
  rw [Fields.done_optional_iff "numberOfValues" distinct, count]
  constructor
  · rintro ⟨-, count⟩
    exact ⟨object, name, title, mandatory, count⟩
  · intro h
    refine ⟨⟨⟨?name, ?title⟩, ?mandatory⟩, h.numberOfValues⟩
    case name =>
      exact Fields.done_required_of u.proper ((u.has_iff (by decide) (by decide)).2 name)
        fun _ _ => reads_identifier_iff.2
    case title =>
      exact Fields.done_optional_of u.proper ((u.may_iff (by decide) (by decide)).2 title)
        fun _ _ => Decoder.reads_text_iff.2
    case mandatory =>
      exact Fields.done_required_of u.proper ((u.has_iff (by decide) (by decide)).2 mandatory)
        fun _ _ => Decoder.reads_bool_iff.2

theorem done_nodeOf_iff {child : Decoder Category} {kind : Fields → Reading CategoryKind}
    {f : Fields} :
    (Category.nodeOf child kind f).Done ↔
      (Category.headOf f).Done ∧ (kind f).Done ∧
        (f.optional "sub_categories" (Decoder.list child)).Done := by
  simp only [Category.nodeOf, Reading.done_seq_iff, Reading.done_map_iff, and_assoc]

/-- The children are read one by one. -/
theorem done_children_iff (u : Untagged v members) {child : Decoder Category}
    (lists : v.May "sub_categories" (IsListOf 1 fun _ => True)) :
    (Fields.optional ⟨t, at_, .named members⟩ "sub_categories" (Decoder.list child)).Done ↔
      ∀ c, IsChild c v → child.Reads at_ c := by
  rw [Fields.done_optional_iff _ (isProper_object_iff.1 u.proper).1,
    u.may_iff (by decide) (by decide)]
  constructor
  · rintro each c ⟨items, found, mem⟩
    rcases each _ found with absent | reads
    · cases absent
    · obtain ⟨items', same, all⟩ := Decoder.reads_list_iff.1 reads
      cases same
      exact all c mem
  · intro each w found
    rcases lists w found with absent | ⟨items, rfl, -, -⟩
    · exact .inl absent
    · exact .inr (Decoder.reads_list_iff.2 ⟨items, rfl, fun c mem => each c ⟨items, found, mem⟩⟩)

/-- The shape of all four kinds: the head, what is special to the kind, and
the children. -/
theorem reads_node_iff (u : Untagged v members) (head : HasHead .byValue v)
    (lists : v.May "sub_categories" (IsListOf 1 fun _ => True)) {child : Decoder Category}
    {kind : Fields → Reading CategoryKind} :
    (t.decode (Category.nodeOf child kind)).Reads at_ (.object members) ↔
      HasHead .written v ∧ (kind ⟨t, at_, .named members⟩).Done ∧
        ∀ c, IsChild c v → child.Reads at_ c := by
  rw [RecordType.reads_decode_iff, done_nodeOf_iff, done_headOf_iff u head,
    done_children_iff u lists]

theorem reads_decodeSimple_iff (u : Untagged v members) (head : HasHead .byValue v)
    (lists : v.May "sub_categories" (IsListOf 1 fun _ => True)) {child : Decoder Category}
    (type : v.Has "type" (IsOneOf scalarNames)) (pattern : v.May "pattern" IsText)
    (maxChar : v.May "max_char" IntegerRules.byValue.amount) :
    (Category.decodeSimple child).Reads at_ (.object members) ↔
      HasHead .written v ∧ v.May "max_char" IntegerRules.written.amount ∧
        ∀ c, IsChild c v → child.Reads at_ c := by
  have characters : (Json.object members).May "max_char" (Decoder.u32.Reads at_) ↔
      v.May "max_char" IntegerRules.written.amount := by
    rw [u.may_iff (by decide) (by decide)]
    exact may_congr_of maxChar fun w hw => reads_u32_iff hw (by decide) (by decide)
  rw [Category.decodeSimple, reads_node_iff u head lists]
  refine and_congr_right fun _ => and_congr_left fun _ => ?_
  simp only [Reading.done_seq_iff, Reading.done_map_iff]
  rw [Fields.done_optional_iff "max_char" (isProper_object_iff.1 u.proper).1, characters]
  constructor
  · rintro ⟨⟨⟨-, characters⟩, -⟩, -⟩
    exact characters
  · intro characters
    refine ⟨⟨⟨?type, characters⟩, ?pattern⟩, ?initialValue⟩
    case type =>
      exact Fields.done_required_of u.proper ((u.has_iff (by decide) (by decide)).2 type)
        fun _ _ named => reads_choice named rfl
    case pattern =>
      exact Fields.done_optional_of u.proper ((u.may_iff (by decide) (by decide)).2 pattern)
        fun _ _ => Decoder.reads_text_iff.2
    case initialValue =>
      exact Fields.done_optional_of (P := fun _ => True) u.proper (fun _ _ => .inr trivial)
        fun _ _ _ => Decoder.reads_any

theorem reads_decodeList_iff (u : Untagged v members) (head : HasHead .byValue v)
    (lists : v.May "sub_categories" (IsListOf 1 fun _ => True)) {child : Decoder Category}
    (values : v.Has "values" (IsListOf 2 IsEntry)) :
    (Category.decodeList child).Reads at_ (.object members) ↔
      HasHead .written v ∧ ∀ c, IsChild c v → child.Reads at_ c := by
  have kind : ((CategoryKind.list <$> Fields.required ⟨Category.listType, at_, .named members⟩
      "values" (Decoder.list NamedEntry.decode)).Done) := by
    rw [Reading.done_map_iff]
    exact Fields.done_required_of u.proper ((u.has_iff (by decide) (by decide)).2 values)
      fun _ => reads_entries
  rw [Category.decodeList, reads_node_iff u head lists]
  exact and_congr_right fun _ => and_iff_right kind

theorem reads_decodeIndependent_iff (u : Untagged v members) (head : HasHead .byValue v)
    (lists : v.May "sub_categories" (IsListOf 1 fun _ => True)) {child : Decoder Category}
    (referenceName : v.May "reference_name" IsText)
    (values : v.Has "initial_values" (IsListOf 1 IsEntry)) :
    (Category.decodeIndependent child).Reads at_ (.object members) ↔
      HasHead .written v ∧ ∀ c, IsChild c v → child.Reads at_ c := by
  rw [Category.decodeIndependent, reads_node_iff u head lists]
  refine and_congr_right fun _ => and_iff_right ?_
  rw [Reading.done_seq_iff, Reading.done_map_iff]
  refine ⟨?referenceName, ?values⟩
  case referenceName =>
    exact Fields.done_optional_of u.proper ((u.may_iff (by decide) (by decide)).2 referenceName)
      fun _ _ => Decoder.reads_text_iff.2
  case values =>
    exact Fields.done_required_of u.proper ((u.has_iff (by decide) (by decide)).2 values)
      fun _ => reads_entries

theorem reads_decodeDependent_iff (u : Untagged v members) (head : HasHead .byValue v)
    (lists : v.May "sub_categories" (IsListOf 1 fun _ => True)) {child : Decoder Category}
    (dependsOn : v.Has "depends_on" IsName) :
    (Category.decodeDependent child).Reads at_ (.object members) ↔
      HasHead .written v ∧ ∀ c, IsChild c v → child.Reads at_ c := by
  rw [Category.decodeDependent, reads_node_iff u head lists]
  refine and_congr_right fun _ => and_iff_right ?_
  rw [Reading.done_map_iff]
  exact Fields.done_required_of u.proper ((u.has_iff (by decide) (by decide)).2 dependsOn)
    fun _ _ => reads_identifier_iff.2

/-- Taking off the tag leaves the other keys as they are. -/
theorem untagged_without (proper : (Json.object members).IsProper) :
    Untagged (.object members) (without "category_type" members) :=
  ⟨isProper_without proper, fun _ tag _ => get?_without tag⟩

theorem untagged_without_both (proper : (Json.object members).IsProper) :
    Untagged (.object members) (without "dynamic_subtype" (without "category_type" members)) :=
  ⟨isProper_without (isProper_without proper),
    fun _ tag subtype => (get?_without subtype).trans (get?_without tag)⟩

/-- The tag decides which of the readers is used, and is taken off. -/
theorem decodeWith_eq {child : Decoder Category} {name : String}
    (distinct : (members.map (·.1)).Nodup)
    (tag : (Json.object members).get? "category_type" = some (.text name))
    (known : name ∈ Category.union.variants) :
    Category.decodeWith child at_ (.object members) =
      if name = "Simple" then
        Category.decodeSimple child .held (.object (without "category_type" members))
      else if name = "List" then
        Category.decodeList child .held (.object (without "category_type" members))
      else Category.decodeDynamicWith child .held (.object (without "category_type" members)) := by
  have split := Category.union.split_object at_ distinct tag known
  unfold Category.decodeWith
  rw [split]
  rfl

theorem decodeDynamicWith_eq {child : Decoder Category} {name : String}
    (distinct : (members.map (·.1)).Nodup)
    (tag : (Json.object members).get? "dynamic_subtype" = some (.text name))
    (known : name ∈ Category.dynamicUnion.variants) :
    Category.decodeDynamicWith child at_ (.object members) =
      if name = "Independent" then
        Category.decodeIndependent child .held (.object (without "dynamic_subtype" members))
      else Category.decodeDependent child .held (.object (without "dynamic_subtype" members)) := by
  have split := Category.dynamicUnion.split_object at_ distinct tag known
  unfold Category.decodeDynamicWith
  rw [split]
  rfl

/-- The second tag is behind the first one. -/
theorem decodeWith_dynamic_eq {child : Decoder Category} {name : String}
    (proper : (Json.object members).IsProper)
    (tag : (Json.object members).get? "category_type" = some (.text "DynamicList"))
    (subtype : (Json.object members).get? "dynamic_subtype" = some (.text name))
    (known : name ∈ Category.dynamicUnion.variants) :
    Category.decodeWith child at_ (.object members) =
      if name = "Independent" then
        Category.decodeIndependent child .held
          (.object (without "dynamic_subtype" (without "category_type" members)))
      else
        Category.decodeDependent child .held
          (.object (without "dynamic_subtype" (without "category_type" members))) := by
  rw [decodeWith_eq (isProper_object_iff.1 proper).1 tag (by decide)]
  exact decodeDynamicWith_eq (isProper_object_iff.1 (isProper_without proper)).1
    ((get?_without (by decide)).trans subtype) known

theorem reads_congr {α : Type} {d e : Decoder α} {here there : Standing} {v w : Json}
    (same : d here v = e there w) : d.Reads here v ↔ e.Reads there w := by
  unfold Decoder.Reads
  rw [same]

/-- One level of a category.  The tags decide which of the four readers is
used; each of them leaves the children to `child`. -/
theorem reads_decodeWith_iff (proper : v.IsProper) (form : IsCategory .byValue v)
    {child : Decoder Category}
    (below : ∀ c, IsChild c v → (child.Reads .held c ↔ IsCategory .written c)) :
    (Category.decodeWith child).Reads at_ v ↔ IsCategory .written v := by
  obtain ⟨head, kind, lists, -⟩ := form
  obtain ⟨members, rfl⟩ := head.object
  have distinct := (isProper_object_iff.1 proper).1
  have each : (∀ c, IsChild c (.object members) → child.Reads .held c) ↔
      ∀ c, IsChild c (.object members) → IsCategory .written c :=
    forall₂_congr below
  cases kind with
  | simple tag type maxChar pattern =>
    have step : (Category.decodeWith child).Reads at_ (.object members) ↔
        (Category.decodeSimple child).Reads .held (.object (without "category_type" members)) :=
      reads_congr (decodeWith_eq distinct tag (by decide))
    rw [step, reads_decodeSimple_iff (untagged_without proper) head lists type pattern maxChar,
      each]
    constructor
    · rintro ⟨head', maxChar', each'⟩
      exact .node head' (.simple tag type maxChar' pattern) lists each'
    · rintro ⟨head', kind', -, each'⟩
      refine ⟨head', ?_, each'⟩
      -- the tag leaves no other kind
      cases kind' with
      | simple _ _ maxChar' _ => exact maxChar'
      | list tag' => exact absurd (tag.symm.trans tag') (by simp)
      | independent tag' => exact absurd (tag.symm.trans tag') (by simp)
      | dependent tag' => exact absurd (tag.symm.trans tag') (by simp)
  | list tag values =>
    have step : (Category.decodeWith child).Reads at_ (.object members) ↔
        (Category.decodeList child).Reads .held (.object (without "category_type" members)) :=
      reads_congr (decodeWith_eq distinct tag (by decide))
    rw [step, reads_decodeList_iff (untagged_without proper) head lists values, each]
    exact ⟨fun h => .node h.1 (.list tag values) lists h.2, fun ⟨h, _, _, each'⟩ => ⟨h, each'⟩⟩
  | independent tag subtype referenceName values =>
    have step : (Category.decodeWith child).Reads at_ (.object members) ↔
        (Category.decodeIndependent child).Reads .held
          (.object (without "dynamic_subtype" (without "category_type" members))) :=
      reads_congr (decodeWith_dynamic_eq proper tag subtype (by decide))
    rw [step, reads_decodeIndependent_iff (untagged_without_both proper) head lists referenceName
      values, each]
    exact ⟨fun h => .node h.1 (.independent tag subtype referenceName values) lists h.2,
      fun ⟨h, _, _, each'⟩ => ⟨h, each'⟩⟩
  | dependent tag subtype dependsOn =>
    have step : (Category.decodeWith child).Reads at_ (.object members) ↔
        (Category.decodeDependent child).Reads .held
          (.object (without "dynamic_subtype" (without "category_type" members))) :=
      reads_congr (decodeWith_dynamic_eq proper tag subtype (by decide))
    rw [step, reads_decodeDependent_iff (untagged_without_both proper) head lists dependsOn, each]
    exact ⟨fun h => .node h.1 (.dependent tag subtype dependsOn) lists h.2,
      fun ⟨h, _, _, each'⟩ => ⟨h, each'⟩⟩

theorem reads_decodeUpTo_iff (v : Json) (proper : v.IsProper) (form : IsCategory .byValue v)
    {levels : Nat} (enough : v.depth < levels) :
    (Category.decodeUpTo levels).Reads at_ v ↔ IsCategory .written v := by
  induction levels generalizing v at_ with
  | zero => omega
  | succ levels ih =>
    apply reads_decodeWith_iff proper form
    intro c child
    have shallower := depth_child_lt child
    obtain ⟨-, -, -, each⟩ := form
    exact ih c (child.isProper proper) (each c child) (by omega)

/-- Of a category of the right form only the integers decide. -/
theorem reads_category_iff (proper : v.IsProper) (form : IsCategory .byValue v) :
    Category.decode.Reads at_ v ↔ IsCategory .written v :=
  reads_decodeUpTo_iff v proper form (Nat.lt_succ_self _)

end Categories

/-! ## §5. Documents. -/

theorem reads_protocol_iff {at_ : Standing} {v : Json} (proper : v.IsProper)
    (form : IsProtocol .byValue v) :
    ReviewProtocol.decode.Reads at_ v ↔ IsProtocol .written v := by
  obtain ⟨⟨members, rfl⟩, project, screening, quality, categories, reporting⟩ := form
  have distinct := (isProper_object_iff.1 proper).1
  have sections : (Json.object members).May "screening" (ScreeningSection.decode.Reads at_) ↔
      (Json.object members).May "screening" (IsScreening .written) := by
    refine forall₂_congr fun w found => ?_
    rcases screening w found with rfl | h
    · exact ⟨fun _ => .inl rfl, fun _ => .inl rfl⟩
    · exact or_congr_right (reads_screening_iff (proper.get? found) h)
  have trees : (Json.object members).Has "category" ((Decoder.list Category.decode).Reads at_) ↔
      (Json.object members).Has "category" (IsListOf 1 (IsCategory .written)) := by
    obtain ⟨u, there, items, rfl, count, forms⟩ := categories
    have propers := isProper_list_iff.1 (proper.get? there)
    refine has_congr fun w found => ?_
    obtain rfl := Option.some.inj (there.symm.trans found)
    rw [Decoder.reads_list_iff, IsListOf]
    refine exists_congr fun list => and_congr_right fun same => ?_
    cases same
    rw [and_iff_right count]
    exact forall₂_congr fun c mem => reads_category_iff (propers c mem) (forms c mem)
  rw [ReviewProtocol.decode, RecordType.reads_decode_iff]
  simp only [Reading.done_seq_iff, Reading.done_map_iff]
  rw [Fields.done_optional_iff "screening" distinct, sections,
    Fields.done_required_iff "category" distinct, trees]
  constructor
  · rintro ⟨⟨⟨⟨-, screening⟩, -⟩, categories⟩, -⟩
    exact ⟨⟨members, rfl⟩, project, screening, quality, categories, reporting⟩
  · rintro ⟨-, -, screening, -, categories, -⟩
    refine ⟨⟨⟨⟨?project, screening⟩, ?quality⟩, categories⟩, ?reporting⟩
    case project => exact Fields.done_required_of proper project fun _ => reads_project
    case quality => exact Fields.done_optional_of proper quality fun _ => reads_quality
    case reporting =>
      exact Fields.done_optional_of proper reporting fun w hw list =>
        reads_listOf hw list fun _ => reads_report

end LiteratureReview
