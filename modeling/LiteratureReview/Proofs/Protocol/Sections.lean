/-
  LiteratureReview.Proofs.Protocol.Sections
  ─────────────────────────────────────────
  The flat sections of a protocol are read back from the way they are
  written.

  For every type there is the table of what is written of it (`table`), that
  it is decoded from what is written (`decode_encode`), and that a text may
  hold what is written (`holds_encode`).  Reals have to be finite for a text
  to hold them; nothing else is asked.
-/
import LiteratureReview.Proofs.Json.Writing
import LiteratureReview.Protocol.Sections

namespace LiteratureReview

open Json Fields Shape

variable {at_ : Standing}

/-! ## §1. Scalars. -/

theorem Identifier.decode_encode (i : Identifier) : decode at_ i.encode = .ok i := by
  show ((parse i.text).mapError DataError.message).mapError _ = _
  unfold parse
  rw [dif_pos i.valid]
  rfl

theorem Identifier.holds_encode (i : Identifier) : shape.Holds i.encode :=
  holds_textOf i.decode_encode

theorem NonEmptyText.decode_encode (t : NonEmptyText) : decode at_ t.encode = .ok t := by
  show ((parse t.text).mapError DataError.message).mapError _ = _
  unfold parse
  rw [dif_neg t.nonempty]
  rfl

theorem NonEmptyText.holds_encode (t : NonEmptyText) : shape.Holds t.encode :=
  holds_textOf t.decode_encode

/-! ## §2. The project. -/

namespace ProjectSection

def table (p : ProjectSection) : List (String × Option Json) :=
  [("short_name", some p.shortName.encode), ("name", some p.name.encode),
   ("description", p.description.map .text)]

theorem encode_eq (p : ProjectSection) : p.encode = .object (given p.table) := by
  simp only [encode, member_eq_given, memberIf_eq_given, ← given_append]
  rfl

theorem distinct (p : ProjectSection) : (p.table.map (·.1)).Nodup :=
  (by decide : type.fields.Nodup)

theorem decode_encode (p : ProjectSection) : decode at_ p.encode = .ok p := by
  rw [encode_eq]
  unfold decode RecordType.decode
  simp only
  rw [required_given "short_name" p.distinct rfl p.shortName.decode_encode,
    required_given "name" p.distinct rfl p.name.decode_encode,
    optional_given "description" p.distinct rfl fun s _ => ⟨nofun, rfl⟩]
  rfl

theorem holds_encode (p : ProjectSection) : shape.Holds p.encode := by
  rw [encode_eq]
  exact holds_given p.distinct <|
    .cons (fills_required _ p.shortName.holds_encode) <|
    .cons (fills_required _ p.name.holds_encode) <|
    .cons (fills_optional _ rfl fun s _ => ⟨nofun, holds_string s⟩) .nil

theorem depth_encode_le (p : ProjectSection) : p.encode.depth ≤ 1 := by
  rw [encode_eq]
  exact depth_given_le <| List.forall_mem_cons.2 ⟨meets_required _ (Nat.le_refl 0),
    List.forall_mem_cons.2 ⟨meets_required _ (Nat.le_refl 0),
    List.forall_mem_cons.2 ⟨meets_optional _ fun s _ => Nat.le_refl 0, nofun⟩⟩⟩

end ProjectSection

/-! ## §3. Screening. -/

namespace NamedEntry

def table (e : NamedEntry) : List (String × Option Json) := [("name", some e.name.encode)]

theorem encode_eq (e : NamedEntry) : e.encode = .object (given e.table) := rfl

theorem distinct (e : NamedEntry) : (e.table.map (·.1)).Nodup :=
  (by decide : type.fields.Nodup)

theorem decode_encode (e : NamedEntry) : decode at_ e.encode = .ok e := by
  rw [encode_eq]
  unfold decode RecordType.decode
  simp only
  rw [required_given "name" e.distinct rfl e.name.decode_encode]
  rfl

theorem holds_encode (e : NamedEntry) : shape.Holds e.encode := by
  rw [encode_eq]
  exact holds_given e.distinct <| .cons (fills_required _ e.name.holds_encode) .nil

theorem depth_encode (e : NamedEntry) : e.encode.depth = 1 := rfl

theorem depth_all_le (entries : List NamedEntry) : (listOf encode entries).depth ≤ 2 :=
  depth_listOf_le fun e _ => e.depth_encode.le

end NamedEntry

namespace PhaseSection

def table (p : PhaseSection) : List (String × Option Json) :=
  [("title", some p.title.encode), ("description", p.description.map .text),
   ("fields", p.fields.map (listOf Identifier.encode))]

theorem encode_eq (p : PhaseSection) : p.encode = .object (given p.table) := by
  simp only [encode, member_eq_given, memberIf_eq_given, ← given_append]
  rfl

theorem distinct (p : PhaseSection) : (p.table.map (·.1)).Nodup :=
  (by decide : type.fields.Nodup)

theorem decode_encode (p : PhaseSection) : decode at_ p.encode = .ok p := by
  rw [encode_eq]
  unfold decode RecordType.decode
  simp only
  rw [required_given "title" p.distinct rfl p.title.decode_encode,
    optional_given "description" p.distinct rfl fun s _ => ⟨nofun, rfl⟩,
    optional_given "fields" p.distinct rfl fun names _ =>
      ⟨nofun, Decoder.list_listOf fun i _ => i.decode_encode⟩]
  rfl

theorem holds_encode (p : PhaseSection) : shape.Holds p.encode := by
  rw [encode_eq]
  exact holds_given p.distinct <|
    .cons (fills_required _ p.title.holds_encode) <|
    .cons (fills_optional _ rfl fun s _ => ⟨nofun, holds_string s⟩) <|
    .cons (fills_optional _ rfl fun names _ =>
      ⟨nofun, holds_listOf fun i _ => i.holds_encode⟩) .nil

theorem depth_encode_le (p : PhaseSection) : p.encode.depth ≤ 2 := by
  rw [encode_eq]
  exact depth_given_le <| List.forall_mem_cons.2 ⟨meets_required _ (Nat.zero_le 1),
    List.forall_mem_cons.2 ⟨meets_optional _ fun s _ => Nat.zero_le 1,
    List.forall_mem_cons.2 ⟨meets_optional _ fun names _ =>
      depth_listOf_le fun i _ => Nat.le_refl 0, nofun⟩⟩⟩

end PhaseSection

theorem ConflictType.lookup_name (c : ConflictType) : table.lookup c.name = some c := by
  cases c <;> rfl

theorem ConflictResolution.lookup_name (c : ConflictResolution) :
    table.lookup c.name = some c := by
  cases c <;> rfl

theorem AssignmentMode.lookup_name (m : AssignmentMode) : table.lookup m.name = some m := by
  cases m <;> rfl

theorem Chart.lookup_name (c : Chart) : table.lookup c.name = some c := by
  cases c <;> rfl

namespace ScreeningSection

def table (s : ScreeningSection) : List (String × Option Json) :=
  [("review_per_paper", some (Json.u32 s.reviewPerPaper)),
   ("conflict_type", some (.text s.conflictType.name)),
   ("conflict_resolution", some (.text s.conflictResolution.name)),
   ("exclusion_criteria", some (listOf NamedEntry.encode s.exclusionCriteria)),
   ("source_papers", s.sourcePapers.map (listOf NamedEntry.encode)),
   ("search_strategy", s.searchStrategy.map (listOf NamedEntry.encode)),
   ("validation_percentage", s.validationPercentage.map Json.u32),
   ("validation_assignment_mode", s.assignmentMode.map fun m => .text m.name),
   ("phases", s.phases.map (listOf PhaseSection.encode))]

theorem encode_eq (s : ScreeningSection) : s.encode = .object (given s.table) := by
  simp only [encode, member_eq_given, memberIf_eq_given, ← given_append]
  rfl

theorem distinct (s : ScreeningSection) : (s.table.map (·.1)).Nodup :=
  (by decide : type.fields.Nodup)

theorem decode_encode (s : ScreeningSection) : decode at_ s.encode = .ok s := by
  have entries : ∀ items : List NamedEntry,
      Decoder.list NamedEntry.decode at_ (listOf NamedEntry.encode items) = .ok items :=
    fun items => Decoder.list_listOf fun e _ => e.decode_encode
  rw [encode_eq]
  unfold decode RecordType.decode
  simp only
  rw [required_given "review_per_paper" s.distinct rfl (Decoder.u32_encode _),
    required_given "conflict_type" s.distinct rfl (Decoder.choice_text s.conflictType.lookup_name),
    required_given "conflict_resolution" s.distinct rfl
      (Decoder.choice_text s.conflictResolution.lookup_name),
    required_given "exclusion_criteria" s.distinct rfl (entries _),
    optional_given "source_papers" s.distinct rfl fun items _ => ⟨nofun, entries items⟩,
    optional_given "search_strategy" s.distinct rfl fun items _ => ⟨nofun, entries items⟩,
    optional_given "validation_percentage" s.distinct rfl fun n _ => ⟨nofun, Decoder.u32_encode n⟩,
    optional_given "validation_assignment_mode" s.distinct rfl fun m _ =>
      ⟨nofun, Decoder.choice_text m.lookup_name⟩,
    optional_given "phases" s.distinct rfl fun phases _ =>
      ⟨nofun, Decoder.list_listOf fun p _ => p.decode_encode⟩]
  rfl

theorem holds_encode (s : ScreeningSection) : shape.Holds s.encode := by
  have entries : ∀ items : List NamedEntry,
      (Shape.list NamedEntry.shape).Holds (listOf NamedEntry.encode items) :=
    fun items => holds_listOf fun e _ => e.holds_encode
  rw [encode_eq]
  exact holds_given s.distinct <|
    .cons (fills_required _ (holds_u32 _)) <|
    .cons (fills_required _ (holds_choiceOf (by cases s.conflictType <;> decide))) <|
    .cons (fills_required _ (holds_choiceOf (by cases s.conflictResolution <;> decide))) <|
    .cons (fills_required _ (entries _)) <|
    .cons (fills_optional _ rfl fun items _ => ⟨nofun, entries items⟩) <|
    .cons (fills_optional _ rfl fun items _ => ⟨nofun, entries items⟩) <|
    .cons (fills_optional _ rfl fun n _ => ⟨nofun, holds_u32 n⟩) <|
    .cons (fills_optional _ rfl fun m _ => ⟨nofun, holds_choiceOf (by cases m <;> decide)⟩) <|
    .cons (fills_optional _ rfl fun phases _ =>
      ⟨nofun, holds_listOf fun p _ => p.holds_encode⟩) .nil

theorem depth_encode_le (s : ScreeningSection) : s.encode.depth ≤ 4 := by
  rw [encode_eq]
  refine depth_given_le fun field mem => ?_
  simp only [table, List.mem_cons, List.not_mem_nil, or_false] at mem
  rcases mem with rfl | rfl | rfl | rfl | rfl | rfl | rfl | rfl | rfl
  · exact meets_required _ (Nat.zero_le 3)
  · exact meets_required _ (Nat.zero_le 3)
  · exact meets_required _ (Nat.zero_le 3)
  · exact meets_required _ ((NamedEntry.depth_all_le _).trans (by decide))
  · exact meets_optional _ fun items _ => (NamedEntry.depth_all_le items).trans (by decide)
  · exact meets_optional _ fun items _ => (NamedEntry.depth_all_le items).trans (by decide)
  · exact meets_optional _ fun n _ => Nat.zero_le 3
  · exact meets_optional _ fun m _ => Nat.zero_le 3
  · exact meets_optional _ fun phases _ => depth_listOf_le fun p _ => p.depth_encode_le

end ScreeningSection

/-! ## §4. Quality assessment. -/

namespace ResponseSection

def table (r : ResponseSection) : List (String × Option Json) :=
  [("title", some r.title.encode), ("score", some (Json.double r.score))]

theorem encode_eq (r : ResponseSection) : r.encode = .object (given r.table) := rfl

theorem distinct (r : ResponseSection) : (r.table.map (·.1)).Nodup :=
  (by decide : type.fields.Nodup)

theorem decode_encode (r : ResponseSection) : decode at_ r.encode = .ok r := by
  rw [encode_eq]
  unfold decode RecordType.decode
  simp only
  rw [required_given "title" r.distinct rfl r.title.decode_encode,
    required_given "score" r.distinct rfl (a := r.score) rfl]
  rfl

theorem holds_encode {r : ResponseSection} (finite : r.score.isFinite = true) :
    shape.Holds r.encode := by
  rw [encode_eq]
  exact holds_given r.distinct <|
    .cons (fills_required _ r.title.holds_encode) <|
    .cons (fills_required _ (holds_double finite)) .nil

theorem depth_encode (r : ResponseSection) : r.encode.depth = 1 := rfl

end ResponseSection

namespace QualitySection

def table (q : QualitySection) : List (String × Option Json) :=
  [("question", some (listOf NonEmptyText.encode q.questions)),
   ("response", some (listOf ResponseSection.encode q.responses)),
   ("min_score", some (Json.double q.minScore))]

theorem encode_eq (q : QualitySection) : q.encode = .object (given q.table) := rfl

theorem distinct (q : QualitySection) : (q.table.map (·.1)).Nodup :=
  (by decide : type.fields.Nodup)

theorem decode_encode (q : QualitySection) : decode at_ q.encode = .ok q := by
  rw [encode_eq]
  unfold decode RecordType.decode
  simp only
  rw [required_given "question" q.distinct rfl
      (Decoder.list_listOf fun t _ => NonEmptyText.decode_encode t),
    required_given "response" q.distinct rfl
      (Decoder.list_listOf fun r _ => ResponseSection.decode_encode r),
    required_given "min_score" q.distinct rfl (a := q.minScore) rfl]
  rfl

theorem holds_encode {q : QualitySection} (least : q.minScore.isFinite = true)
    (each : ∀ r ∈ q.responses, r.score.isFinite = true) : shape.Holds q.encode := by
  rw [encode_eq]
  exact holds_given q.distinct <|
    .cons (fills_required _ (holds_listOf fun t _ => t.holds_encode)) <|
    .cons (fills_required _
        (holds_listOf fun r mem => ResponseSection.holds_encode (each r mem))) <|
    .cons (fills_required _ (holds_double least)) .nil

theorem depth_encode_le (q : QualitySection) : q.encode.depth ≤ 3 := by
  rw [encode_eq]
  exact depth_given_le <| List.forall_mem_cons.2
    ⟨meets_required _ (depth_listOf_le fun t _ => Nat.zero_le 1),
    List.forall_mem_cons.2 ⟨meets_required _ (depth_listOf_le fun r _ => r.depth_encode.le),
    List.forall_mem_cons.2 ⟨meets_required _ (Nat.zero_le 2), nofun⟩⟩⟩

end QualitySection

/-! ## §5. Reports. -/

namespace Report

/-- The name of the variant of a report. -/
def variant (r : Report) : String := if r.reference.isSome then "Compared" else "Simple"

/-- What is written of a report, its tag apart. -/
def table (r : Report) : List (String × Option Json) :=
  [("name", some (.text r.name)), ("title", r.title.map .text),
   ("value", some r.value.encode), ("reference", r.reference.map Identifier.encode),
   ("chart", some (listOf (fun c => .text c.name) r.charts))]

/-- What is written of a report, its tag first. -/
def tagged (r : Report) : List (String × Option Json) :=
  ("report_type", some (.text r.variant)) :: r.table

theorem encode_eq (r : Report) : r.encode = .object (given r.tagged) := by
  simp only [encode, member_eq_given, memberIf_eq_given, ← given_append]
  rfl

theorem tagged_distinct (r : Report) : (r.tagged.map (·.1)).Nodup :=
  (by decide : (union.tag :: comparedType.fields).Nodup)

theorem distinct (r : Report) : (r.table.map (·.1)).Nodup :=
  (List.nodup_cons.1 r.tagged_distinct).2

theorem lookup_tag (r : Report) : (given r.tagged).lookup union.tag = some (.text r.variant) :=
  lookup_given r.tagged_distinct rfl

theorem variant_mem (r : Report) : r.variant ∈ union.variants := by
  unfold variant
  split <;> decide

theorem decode_charts (charts : List Chart) :
    Decoder.list (Decoder.choice Chart.table) at_ (listOf (fun c => .text c.name) charts) =
      .ok charts :=
  Decoder.list_listOf fun c _ => Decoder.choice_text c.lookup_name

theorem decodeSimple_table {r : Report} (reference : r.reference = none) :
    decodeSimple at_ (.object (given r.table)) = .ok r := by
  unfold decodeSimple RecordType.decode
  simp only
  rw [required_given "name" r.distinct rfl (a := r.name) rfl,
    optional_given "title" r.distinct rfl fun s _ => ⟨nofun, rfl⟩,
    required_given "value" r.distinct rfl r.value.decode_encode,
    required_given "chart" r.distinct rfl (decode_charts _)]
  show Except.ok (Report.mk r.name r.title r.value none r.charts) = _
  rw [← reference]

theorem decodeCompared_table {r : Report} {target : Identifier}
    (reference : r.reference = some target) :
    decodeCompared at_ (.object (given r.table)) = .ok r := by
  have there : r.table.lookup "reference" = some (some target.encode) := by
    show some (r.reference.map Identifier.encode) = _
    rw [reference]
    rfl
  unfold decodeCompared RecordType.decode
  simp only
  rw [required_given "name" r.distinct rfl (a := r.name) rfl,
    optional_given "title" r.distinct rfl fun s _ => ⟨nofun, rfl⟩,
    required_given "value" r.distinct rfl r.value.decode_encode,
    required_given "reference" r.distinct there target.decode_encode,
    required_given "chart" r.distinct rfl (decode_charts _)]
  show Except.ok (Report.mk r.name r.title r.value (some target) r.charts) = _
  rw [← reference]

theorem decode_encode (r : Report) : decode at_ r.encode = .ok r := by
  rw [encode_eq]
  unfold decode
  have split : union.split at_ (.object (given r.tagged)) =
      .ok (r.variant, .object (given r.table)) :=
    union.split_given at_ r.variant_mem r.tagged_distinct
  rw [split]
  simp only [bind, Except.bind]
  -- a report is compared when it has a reference
  cases reference : r.reference with
  | none =>
    have simple : r.variant = "Simple" := by
      unfold variant
      rw [reference]
      rfl
    rw [simple, if_pos rfl]
    exact decodeSimple_table reference
  | some target =>
    have compared : r.variant = "Compared" := by
      unfold variant
      rw [reference]
      rfl
    rw [compared, if_neg (by decide)]
    exact decodeCompared_table reference

theorem holds_encode (r : Report) : shape.Holds r.encode := by
  have proper : r.encode.IsProper := by
    rw [encode_eq]
    refine isProper_given r.tagged_distinct fun field mem => ?_
    simp only [tagged, table, List.mem_cons, List.not_mem_nil, or_false] at mem
    rcases mem with rfl | rfl | rfl | rfl | rfl | rfl
    · exact meets_required _ rfl
    · exact meets_required _ rfl
    · exact meets_optional _ fun s _ => rfl
    · exact meets_required _ rfl
    · exact meets_optional _ fun i _ => rfl
    · exact meets_required _ (isProper_list_iff.2 fun v mem => by
        obtain ⟨c, _, rfl⟩ := List.mem_map.1 mem
        rfl)
  have read : checkOf decode r.encode = .ok () := by
    unfold checkOf
    rw [decode_encode]
    rfl
  rw [encode_eq] at proper read ⊢
  exact holds_union proper r.lookup_tag r.variant_mem read

theorem depth_encode_le (r : Report) : r.encode.depth ≤ 2 := by
  rw [encode_eq]
  refine depth_given_le fun field mem => ?_
  simp only [tagged, table, List.mem_cons, List.not_mem_nil, or_false] at mem
  rcases mem with rfl | rfl | rfl | rfl | rfl | rfl
  · exact meets_required _ (Nat.zero_le 1)
  · exact meets_required _ (Nat.zero_le 1)
  · exact meets_optional _ fun s _ => Nat.zero_le 1
  · exact meets_required _ (Nat.zero_le 1)
  · exact meets_optional _ fun i _ => Nat.zero_le 1
  · exact meets_required _ (depth_listOf_le fun c _ => Nat.le_refl 0)

end Report

end LiteratureReview
