/-
  LiteratureReview.Proofs.Protocol.Decoded
  ────────────────────────────────────────
  What is true of a protocol because it has been read from JSON.

    • `IsDecoded.hasFiniteScores` — its reals are finite,
    • `lowercase_label` — its label is in lowercase,
    • `withinBounds_of_isProtocol` — when it was read from a document of the
      grammar, its numbers are within the bounds of the grammar.
-/
import LiteratureReview.Proofs.Decimal.Rounding
import LiteratureReview.Proofs.Json.Inversion
import LiteratureReview.Proofs.Protocol.Grammar
import LiteratureReview.Proofs.Text.Lowercase
import LiteratureReview.Protocol.Document

namespace LiteratureReview

open Json Decimal

/-! ## §1. Reals. -/

variable {at_ : Standing} {v : Json}

theorem isFinite_of_double {x : Double} (proper : v.HasProperNumbers)
    (h : Decoder.double at_ v = .ok x) : x.isFinite = true := by
  cases v with
  | number n =>
    cases h
    cases n with
    | int i => exact Double.isFinite_ofInt i
    | float y => exact proper
  | _ => cases h

/-- The reals of a protocol are finite. -/
def ReviewProtocol.HasFiniteScores (p : ReviewProtocol) : Prop :=
  ∀ q, p.quality = some q → q.minScore.isFinite = true ∧ ∀ r ∈ q.responses, r.score.isFinite = true

theorem ResponseSection.isFinite_of_decode {r : ResponseSection} (proper : v.HasProperNumbers)
    (h : decode at_ v = .ok r) : r.score.isFinite = true := by
  obtain ⟨f, values, rfl, built⟩ := RecordType.exists_of_decode h
  simp only [Reading.seq_eq_done_iff, Reading.map_eq_done_iff] at built
  obtain ⟨_, ⟨title, _, rfl⟩, score, read, rfl⟩ := built
  obtain ⟨w, part, read⟩ := Fields.exists_part_of_required read
  exact isFinite_of_double (proper.part (values ▸ part)) read

theorem QualitySection.isFinite_of_decode {q : QualitySection} (proper : v.HasProperNumbers)
    (h : decode at_ v = .ok q) :
    q.minScore.isFinite = true ∧ ∀ r ∈ q.responses, r.score.isFinite = true := by
  obtain ⟨f, values, rfl, built⟩ := RecordType.exists_of_decode h
  simp only [Reading.seq_eq_done_iff, Reading.map_eq_done_iff] at built
  obtain ⟨_, ⟨_, ⟨questions, _, rfl⟩, responses, list, rfl⟩, score, read, rfl⟩ := built
  constructor
  · obtain ⟨w, part, read⟩ := Fields.exists_part_of_required read
    exact isFinite_of_double (proper.part (values ▸ part)) read
  · intro r mem
    obtain ⟨w, part, list⟩ := Fields.exists_part_of_required list
    obtain ⟨x, inside, read⟩ := Decoder.exists_item_of_list list r mem
    exact ResponseSection.isFinite_of_decode ((proper.part (values ▸ part)).part inside) read

namespace ReviewProtocol

/-- **The reals of a protocol that has been read are finite.** -/
theorem hasFiniteScores_of_decode {p : ReviewProtocol} (proper : v.HasProperNumbers)
    (h : decode at_ v = .ok p) :
    p.HasFiniteScores := by
  obtain ⟨f, values, rfl, built⟩ := RecordType.exists_of_decode h
  simp only [Reading.seq_eq_done_iff, Reading.map_eq_done_iff] at built
  obtain ⟨_, ⟨_, ⟨_, ⟨_, ⟨project, _, rfl⟩, _, _, rfl⟩, quality, read, rfl⟩, _, _, rfl⟩, _, _,
    rfl⟩ := built
  rintro q rfl
  obtain ⟨w, part, _, read⟩ := Fields.exists_part_of_optional read
  exact QualitySection.isFinite_of_decode (proper.part (values ▸ part)) read

/-- A protocol that has been read from JSON, validated or not. -/
def IsDecoded (p : ReviewProtocol) : Prop :=
  ∃ at_ v, Json.HasProperNumbers v ∧ decode at_ v = .ok p

theorem IsDecoded.hasFiniteScores {p : ReviewProtocol} (h : p.IsDecoded) : p.HasFiniteScores := by
  obtain ⟨at_, v, proper, read⟩ := h
  exact hasFiniteScores_of_decode proper read

/-! ## §2. The label. -/

theorem lowercase_label (p : ReviewProtocol) : Text.lowercase p.label = p.label :=
  Text.lowercase_lowercase (isBasic_of_isIdentifier p.project.shortName.valid)

/-! ## §3. Bounds. -/

/-- The bounds that the store asks of a protocol. -/
def WithinBounds (p : ReviewProtocol) : Prop :=
  ∀ s, p.screening = some s →
    1 ≤ s.reviewPerPaper ∧ ∀ n, s.validationPercentage = some n → n ≤ 100

end ReviewProtocol

open Grammar

theorem toNat_of_u32 {low high : Int} {n : UInt32} (inside : IsInteger low high v)
    (h : Decoder.u32 at_ v = .ok n) : low ≤ n.toNat ∧ (n.toNat : Int) ≤ high := by
  obtain ⟨i, rfl, lower, upper⟩ := inside
  have limit : (twoTo 32 : Int) = 4294967296 := by decide
  simp only [Decoder.u32, Decoder.integer, Decoder.integerOf, limit] at h
  split at h
  next fits =>
    cases h
    rw [UInt32.toNat_ofNat_of_lt' (show i.toNat < 4294967296 by omega)]
    omega
  next => cases h

/-- A screening section of the grammar is within bounds. -/
theorem ScreeningSection.withinBounds_of_decode {s : ScreeningSection} (proper : v.IsProper)
    (form : IsScreening .written v) (h : decode at_ v = .ok s) :
    1 ≤ s.reviewPerPaper ∧ ∀ n, s.validationPercentage = some n → n ≤ 100 := by
  obtain ⟨members, rfl⟩ := form.object
  have distinct := (isProper_object_iff.1 proper).1
  replace h := Reading.toExcept_eq_ok_iff.1 h
  simp only [Reading.seq_eq_done_iff, Reading.map_eq_done_iff] at h
  obtain ⟨_, ⟨_, ⟨_, ⟨_, ⟨_, ⟨_, ⟨_, ⟨_, ⟨reviewers, amount, rfl⟩, _, _, rfl⟩, _, _, rfl⟩,
    _, _, rfl⟩, _, _, rfl⟩, _, _, rfl⟩, share, percentage, rfl⟩, _, _, rfl⟩, _, _, rfl⟩ := h
  constructor
  · obtain ⟨w, there, read⟩ := Fields.lookup_of_required distinct amount
    obtain ⟨w', same, inside⟩ := form.reviewPerPaper
    obtain rfl : w = w' := Option.some.inj (there.symm.trans same)
    have := (toNat_of_u32 inside read).1
    exact UInt32.le_iff_toNat_le.2 (show 1 ≤ reviewers.toNat by omega)
  · rintro n rfl
    obtain ⟨w, there, present, read⟩ := Fields.lookup_of_optional distinct percentage
    have inside := (form.validationPercentage w there).resolve_left present
    have := (toNat_of_u32 inside read).2
    exact UInt32.le_iff_toNat_le.2 (show n.toNat ≤ 100 by omega)

/-- **A protocol that has been read from a document of the grammar is within
bounds.** -/
theorem ReviewProtocol.withinBounds_of_isProtocol {p : ReviewProtocol} (proper : v.IsProper)
    (form : IsProtocol .written v) (h : decode at_ v = .ok p) : p.WithinBounds := by
  obtain ⟨members, rfl⟩ := form.object
  have distinct := (isProper_object_iff.1 proper).1
  replace h := Reading.toExcept_eq_ok_iff.1 h
  simp only [Reading.seq_eq_done_iff, Reading.map_eq_done_iff] at h
  obtain ⟨_, ⟨_, ⟨_, ⟨_, ⟨project, _, rfl⟩, screening, read, rfl⟩, _, _, rfl⟩, _, _, rfl⟩, _, _,
    rfl⟩ := h
  rintro s rfl
  obtain ⟨w, there, present, read⟩ := Fields.lookup_of_optional distinct read
  have section_ := (form.screening w there).resolve_left present
  have : w.IsProper := proper.part (List.mem_map_of_mem (mem_of_lookup there))
  exact ScreeningSection.withinBounds_of_decode this section_ read

end LiteratureReview
