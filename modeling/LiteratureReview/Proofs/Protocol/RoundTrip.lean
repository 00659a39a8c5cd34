/-
  LiteratureReview.Proofs.Protocol.RoundTrip
  ──────────────────────────────────────────
  A protocol is read back from its text.

  This is true of every protocol that has been read from a document
  (`isWritable_of_decode`): its reals are finite, what its fields start with
  can be written, and it is no deeper than the document was.  What is written
  of such a protocol is decoded as the protocol itself (`decode_encode`); a
  text of it has to have less than 128 levels, too (`readText_toText`).
-/
import LiteratureReview.Proofs.Protocol.Categories
import LiteratureReview.Proofs.Protocol.Decoded

namespace LiteratureReview.ReviewProtocol

open Json Fields Shape

variable {p : ReviewProtocol} {at_ : Standing} {v : Json} {limit : Nat}

/-! ## §1. What is written. -/

def table (p : ReviewProtocol) : List (String × Option Json) :=
  [("project", some p.project.encode),
   ("screening", p.screening.map ScreeningSection.encode),
   ("quality_assess", p.quality.map QualitySection.encode),
   ("category", some (listOf Category.encode p.categories)),
   ("reporting", p.reporting.map (listOf Report.encode))]

theorem encode_eq (p : ReviewProtocol) : p.encode = .object (given p.table) := by
  simp only [encode, member_eq_given, memberIf_eq_given, ← given_append,
    Category.encodeAll_eq_map]
  rfl

theorem distinct (p : ReviewProtocol) : (p.table.map (·.1)).Nodup :=
  (by decide : type.fields.Nodup)

/-- A protocol that can be written and read: its reals are finite, the values its fields
start with can be written, and it has less levels than the limit. -/
structure IsWritable (limit : Nat) (p : ReviewProtocol) : Prop where
  finite : p.HasFiniteScores
  categories : ∀ c ∈ p.categories, c.IsWritable (limit - 1)
  shallow : p.encode.depth < limit

/-! ## §2. Reading it back. -/

theorem decode_encode (writable : p.IsWritable limit) : decode at_ p.encode = .ok p := by
  rw [encode_eq]
  unfold decode RecordType.decode
  simp only
  rw [required_given "project" p.distinct rfl p.project.decode_encode,
    optional_given "screening" p.distinct rfl fun s _ => ⟨nofun, s.decode_encode⟩,
    optional_given "quality_assess" p.distinct rfl fun q _ => ⟨nofun, q.decode_encode⟩,
    required_given "category" p.distinct rfl
      (Decoder.list_listOf fun c mem => Category.decode_encode (writable.categories c mem)),
    optional_given "reporting" p.distinct rfl fun reports _ =>
      ⟨nofun, Decoder.list_listOf fun r _ => r.decode_encode⟩]
  rfl

theorem holds_encode (writable : p.IsWritable limit) : shape.Holds p.encode := by
  rw [encode_eq]
  exact holds_given p.distinct <|
    .cons (fills_required _ p.project.holds_encode) <|
    .cons (fills_optional _ rfl fun s _ => ⟨nofun, s.holds_encode⟩) <|
    .cons (fills_optional _ rfl fun q there => ⟨nofun, QualitySection.holds_encode
      (writable.finite q there).1 (writable.finite q there).2⟩) <|
    .cons (fills_required _ (holds_listOf fun c mem =>
      Category.holds_encode (writable.categories c mem))) <|
    .cons (fills_optional _ rfl fun reports _ =>
      ⟨nofun, holds_listOf fun r _ => r.holds_encode⟩) .nil

/-- **A writable protocol is read back from its text.** -/
theorem readText_toText (writable : p.IsWritable Scan.levelLimit) :
    readText shape decode p.toText = .ok p :=
  readText_print (holds_encode writable) writable.shallow (decode_encode writable)

/-! ## §3. Protocols that have been read. -/

/-- **A protocol that has been read from a document is writable** below any limit that the
document stays below; the sections other than the categories need six levels. -/
theorem isWritable_of_decode (numbers : v.HasProperNumbers) (shallow : v.depth < limit)
    (room : 6 ≤ limit) (h : decode at_ v = .ok p) : p.IsWritable limit := by
  have finite := hasFiniteScores_of_decode numbers h
  obtain ⟨f, values, rfl, built⟩ := RecordType.exists_of_decode h
  simp only [Reading.seq_eq_done_iff, Reading.map_eq_done_iff] at built
  obtain ⟨_, ⟨_, ⟨_, ⟨_, ⟨project, _, rfl⟩, screening, _, rfl⟩, quality, _, rfl⟩, categories, list,
    rfl⟩, reporting, _, rfl⟩ := built
  obtain ⟨w, part, read⟩ := exists_part_of_required list
  have there : w ∈ v.parts := values ▸ part
  have each : ∀ x c, x ∈ w.parts → Category.decode f.standing x = .ok c →
      c.IsWritable (limit - 1) ∧ c.encode.depth ≤ x.depth := by
    intro x c inside read
    have := depth_part_lt there
    have := depth_part_lt inside
    exact Category.writable_of_decodeUpTo ((numbers.part there).part inside) (by omega) read
  have lists : (listOf Category.encode categories).depth ≤ limit - 2 := by
    have := Decoder.depth_listOf_le read fun x c inside read => (each x c inside read).2
    have := depth_part_lt there
    omega
  have flat : 4 ≤ limit - 2 := by omega
  refine ⟨finite, fun c mem => ?_, ?_⟩
  · obtain ⟨x, inside, read⟩ := Decoder.exists_item_of_list read c mem
    exact (each x c inside read).1
  · have fields :
        (encode ⟨project, screening, quality, categories, reporting⟩).depth ≤ limit - 2 + 1 := by
      rw [encode_eq]
      refine depth_given_le fun field mem => ?_
      simp only [table, List.mem_cons, List.not_mem_nil, or_false] at mem
      rcases mem with rfl | rfl | rfl | rfl | rfl
      · exact meets_required _ (project.depth_encode_le.trans (by omega))
      · exact meets_optional _ fun s _ => s.depth_encode_le.trans flat
      · exact meets_optional _ fun q _ => q.depth_encode_le.trans (by omega)
      · exact meets_required _ lists
      · exact meets_optional _ fun reports _ =>
          (Json.depth_listOf_le fun r _ => r.depth_encode_le).trans (by omega)
    omega

end LiteratureReview.ReviewProtocol
