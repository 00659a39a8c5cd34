/-
  LiteratureReview.Proofs.Validation.WritingBack
  ──────────────────────────────────────────────
  An accepted document and what is written of it.

  The validator gives the same protocol for a document and for its canonical
  form (`validate_canon_iff`).  The two passes over the document report the
  same places; the integers, which only the decoder looks at as they are
  written, stand in both documents (`isWord_canon_iff`, `integerField_canon`).
  What is written of an accepted document is its canonical form, so writing
  back and validating again changes nothing.
-/
import LiteratureReview.Proofs.Protocol.Lossless
import LiteratureReview.Proofs.Protocol.WrittenBack
import LiteratureReview.Proofs.Validation.Paths
import LiteratureReview.Proofs.Validation.Verdict

namespace LiteratureReview

open Json Grammar Layout References

variable {v c d w : Json} {key : String} {f : Field}

/-! ## §1. Integers in canonical forms. -/

namespace Layout

variable {type : Section}

/-- What is given under a declared key is given in the canonical form. -/
theorem get?_canon_given (proper : v.IsProper) (declared : fieldOf (type.fields v) key = some f)
    (found : v.get? key = some w) (present : w ≠ .null) :
    (canon (.record type) v).get? key = some (canon f.slot w) := by
  rw [get?_canon_declared proper declared, found, Option.bind_some, Field.canon,
    Field.drops_of_ne present, if_neg Bool.false_ne_true]

/-- Tags are found in the canonical form. -/
theorem get?_canon_text {s : String} (proper : v.IsProper)
    (declared : (fieldOf (type.fields v) key).isSome = true)
    (found : v.get? key = some (.text s)) :
    (canon (.record type) v).get? key = some (.text s) := by
  obtain ⟨f, declared⟩ := Option.isSome_iff_exists.1 declared
  rw [get?_canon_given proper declared found nofun, canon_text]

theorem isWord_canon_iff : IsWord (canon .scalar w) ↔ IsWord w := by
  cases w with
  | number n => rw [canon_number (show Slot.scalar ≠ .real from nofun)]
  | list items => simp [IsWord, canon, prune, Json.normalize]
  | object members => simp [IsWord, canon, prune, Json.normalize]
  | null | bool b | text s => rfl

end Layout

theorem isChild_canon (proper : v.IsProper) (child : IsChild c v) :
    IsChild (canon (.record .category) c) (canon (.record .category) v) := by
  obtain ⟨children, found, mem⟩ := child
  have below := get?_canon_given proper
    (fieldOf_common (f := may "sub_categories" (.list (.record .category))) (by decide) v) found
    nofun
  exact ⟨_, below.trans (congrArg some (canon_listOf _ children)), List.mem_map_of_mem mem⟩

/-- What stands below a category stands below its canonical form. -/
theorem within_canon (proper : v.IsProper) (within : Within v c) :
    c.IsProper ∧ Within (canon (.record .category) v) (canon (.record .category) c) := by
  induction within with
  | here => exact ⟨proper, .here⟩
  | down _ child ih => exact ⟨child.isProper ih.1, .down ih.2 (isChild_canon ih.1 child)⟩

theorem categoryOf_canon (proper : v.IsProper) (of : CategoryOf v c) :
    c.IsProper ∧ CategoryOf (canon (.record .document) v) (canon (.record .category) c) := by
  obtain ⟨tops, found, top, mem, within⟩ := of
  have part := isProper_list_iff.1 (proper.get? found) top mem
  obtain ⟨inner, within⟩ := within_canon part within
  have declared : fieldOf (Section.fields v .document) "category" =
      some (need "category" (.list (.record .category))) := rfl
  have listed := get?_canon_given proper declared found nofun
  exact ⟨inner, _, listed.trans (congrArg some (canon_listOf _ tops)), _,
    List.mem_map_of_mem mem, within⟩

theorem categoryInteger_canon (proper : c.IsProper) (field : CategoryInteger c w)
    (present : w ≠ .null) :
    CategoryInteger (canon (.record .category) c) (canon .scalar w) := by
  rcases field with found | ⟨tag, found⟩
  · exact .inl (get?_canon_given proper
      (fieldOf_common (f := may "numberOfValues" .scalar) (by decide) c) found present)
  · have fields : Section.fields c .category =
        categoryFields (some "Simple") (tagText c "dynamic_subtype") :=
      congrArg (categoryFields · _) (tagText_eq tag)
    refine .inr ⟨get?_canon_text proper (by rw [fields]; rfl) tag, ?_⟩
    exact get?_canon_given proper (f := may "max_char" .scalar) (by rw [fields]; rfl) found present

/-- **The integers of a document stand in its canonical form.** -/
theorem integerField_canon (proper : v.IsProper) (field : IntegerField v w) (present : w ≠ .null) :
    IntegerField (canon (.record .document) v) (canon .scalar w) := by
  have screening : ∀ {s : Json} {key : String}, v.get? "screening" = some s → s.get? key = some w →
      (canon (.record .document) v).get? "screening" = some (canon (.record .screening) s) := by
    intro s key part found
    refine get?_canon_given proper (f := may "screening" (.record .screening)) rfl part ?_
    -- null has no members
    rintro rfl
    cases found
  cases field with
  | reviewPerPaper part found =>
    exact .reviewPerPaper (screening part found)
      (get?_canon_given (proper.get? part) (f := need "review_per_paper" .scalar) rfl found present)
  | validationPercentage part found =>
    exact .validationPercentage (screening part found)
      (get?_canon_given (proper.get? part) (f := may "validation_percentage" .scalar) rfl found
        present)
  | category of found =>
    obtain ⟨part, of⟩ := categoryOf_canon proper of
    exact .category of (categoryInteger_canon part found present)

namespace Validator

/-! ## §2. The same protocol. -/

/-- A document without errors is accepted when its integers are words. -/
theorem accepts_iff_of_errors (proper : v.IsProper) (clean : errors v = []) :
    (∃ p, validate v = .ok p) ↔ ∀ w, IntegerField v w → w = .null ∨ IsWord w := by
  have form := (errors_eq_nil_iff.1 clean).1
  rw [validate_iff_of_errors clean, reads_protocol_iff proper form, isProtocol_written_iff,
    and_iff_right form]

/-- **The validator gives the same protocol for a document and for its canonical form.** -/
theorem validate_canon_iff {p : ReviewProtocol} (proper : v.IsProper) :
    validate (canon (.record .document) v) = .ok p ↔ validate v = .ok p := by
  have proper' : (canon (.record .document) v).IsProper := isProper_canon proper
  -- what is read of a document is read of its canonical form
  have forth : ∀ q, validate v = .ok q → validate (canon (.record .document) v) = .ok q := by
    intro q accepted
    obtain ⟨clean, read⟩ := validate_eq_ok_iff.1 accepted
    refine validate_eq_ok_iff.2 ⟨(errors_canon_eq_nil_iff proper).2 clean, ?_⟩
    rw [canon_of_decode proper (isProtocol_of_validate proper accepted) read]
    exact ReviewProtocol.decode_normalize_encode proper.hasProperNumbers read
  refine ⟨fun accepted => ?_, forth p⟩
  obtain ⟨clean, -⟩ := validate_eq_ok_iff.1 accepted
  have clean' := (errors_canon_eq_nil_iff proper).1 clean
  -- the integers are words in the canonical form, and so in the document
  have words : ∀ w, IntegerField v w → w = .null ∨ IsWord w := by
    intro w field
    refine or_iff_not_imp_left.2 fun present => ?_
    rcases (accepts_iff_of_errors proper' clean).1 ⟨p, accepted⟩ _
      (integerField_canon proper field present) with absent | word
    · exact absurd (canon_eq_null_iff.1 absent) present
    · exact isWord_canon_iff.1 word
  obtain ⟨q, accepted'⟩ := (accepts_iff_of_errors proper clean').2 words
  have same := (forth q accepted').symm.trans accepted
  rwa [Except.ok.inj same] at accepted'

/-! ## §3. Writing back. -/

/-- What is written of the protocol that a document is accepted as. -/
def writtenBack (v : Json) : Except ValidationErrors Json :=
  (validate v).map fun p => p.encode.normalize

/-- **An accepted document is written back as it is, and is accepted again.**  What is left
out is undeclared or an optional null, and scores become doubles; a second time nothing is
left out. -/
theorem validate_writtenBack {p : ReviewProtocol} (proper : v.IsProper)
    (accepted : validate v = .ok p) :
    p.encode.normalize = (prune v (.record .document)).normalize ∧
      (v.IsOrdered → p.encode.normalize = prune v (.record .document)) ∧
        validate p.encode.normalize = .ok p ∧
          ∃ w, writtenBack v = .ok w ∧ writtenBack w = .ok w := by
  have written : canon (.record .document) v = p.encode.normalize :=
    canon_of_decode proper (isProtocol_of_validate proper accepted)
      (validate_eq_ok_iff.1 accepted).2
  have again : validate p.encode.normalize = .ok p := by
    rw [← written]
    exact (validate_canon_iff proper).2 accepted
  refine ⟨written.symm, fun ordered => ?_, again, p.encode.normalize, ?_, ?_⟩
  · rw [← written, canon_of_isOrdered ordered]
  · rw [writtenBack, accepted]
    rfl
  · rw [writtenBack, again]
    rfl

/-- A document with a member that is not declared, with nulls, and with scores that are
written as integers. -/
def looseDocument : Json :=
  .object
    [("category", .list [.object
      [("category_type", .text "Simple"), ("mandatory", .bool true), ("max_char", .null),
       ("name", .text "dose"), ("type", .text "int"), ("unit", .text "mg")]]),
     ("project", .object [("name", .text "A review"), ("short_name", .text "Review")]),
     ("quality_assess", .object
      [("min_score", .number (.int 1)), ("question", .list [.text "Is it blinded?"]),
       ("response", .list [.object [("score", .number (.int 1)), ("title", .text "Yes")]])]),
     ("reporting", .null)]

/-- What is written of that document. -/
def tightDocument : Json :=
  .object
    [("category", .list [.object
      [("category_type", .text "Simple"), ("mandatory", .bool true), ("name", .text "dose"),
       ("type", .text "int")]]),
     ("project", .object [("name", .text "A review"), ("short_name", .text "Review")]),
     ("quality_assess", .object
      [("min_score", .number oneAsDouble), ("question", .list [.text "Is it blinded?"]),
       ("response", .list [.object [("score", .number oneAsDouble), ("title", .text "Yes")]])])]

theorem errors_looseDocument : errors looseDocument = [] := by
  rw [errors, grammarErrors, ProtocolGrammar.grammar_eq]
  decide +kernel

theorem writtenBack_looseDocument :
    ∃ p, validate looseDocument = .ok p ∧ p.encode.normalize = tightDocument ∧
      validate tightDocument = .ok p := by
  obtain ⟨p, accepted⟩ : ∃ p, validate looseDocument = .ok p :=
    (validate_iff_of_errors errors_looseDocument).2 ⟨_, rfl⟩
  obtain ⟨-, kept, again, -⟩ := validate_writtenBack (by decide) accepted
  have tight : p.encode.normalize = tightDocument :=
    (kept (by decide)).trans (by decide +kernel)
  exact ⟨p, accepted, tight, tight ▸ again⟩

end Validator

end LiteratureReview
