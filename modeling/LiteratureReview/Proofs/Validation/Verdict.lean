/-
  LiteratureReview.Proofs.Validation.Verdict
  ──────────────────────────────────────────
  Which documents the validator accepts.

  Three passes have a say: the grammar, the names, and the decoder.  The
  first two together accept the documents whose integers are integers by
  value and whose names resolve (`errors_eq_nil_iff`); the decoder then asks
  in addition that every integer is written as one and fits its word
  (`isProtocol_and_iff`, `written_eq`).

    • `validate_accepts_iff` — the validator accepts exactly the documents
      of the grammar,
    • `validate_of_no_errors` — what happens to a document without errors.
-/
import LiteratureReview.Proofs.Protocol.Typing
import LiteratureReview.Proofs.Validation.Acceptance
import LiteratureReview.Proofs.Validation.References

namespace LiteratureReview

open Json Grammar

variable {v c w : Json} {rules : IntegerRules} {Q : Json → Prop}

/-! ## §1. The integers of a document. -/

namespace Grammar

/-- A value in one of the integer fields of a category. -/
def CategoryInteger (c w : Json) : Prop :=
  c.get? "numberOfValues" = some w ∨
    (c.get? "category_type" = some (.text "Simple") ∧ c.get? "max_char" = some w)

/-- A value in one of the integer fields of a document. -/
inductive IntegerField (document w : Json) : Prop where
  | reviewPerPaper {s : Json} (part : document.get? "screening" = some s)
      (field : s.get? "review_per_paper" = some w)
  | validationPercentage {s : Json} (part : document.get? "screening" = some s)
      (field : s.get? "validation_percentage" = some w)
  | category {c : Json} (of : CategoryOf document c) (field : CategoryInteger c w)

theorem may_and_iff {key : String} {P : Json → Prop} :
    v.May key (fun w => P w ∧ Q w) ↔
      v.May key P ∧ ∀ w, v.get? key = some w → w = .null ∨ Q w := by
  constructor
  · intro h
    exact ⟨fun w found => (h w found).imp_right (·.1), fun w found => (h w found).imp_right (·.2)⟩
  · rintro ⟨hP, hQ⟩ w found
    rcases hP w found, hQ w found with ⟨absent | p, absent' | q⟩
    · exact .inl absent
    · exact .inl absent
    · exact .inl absent'
    · exact .inr ⟨p, q⟩

theorem hasHead_and_iff :
    HasHead (rules.and Q) v ↔
      HasHead rules v ∧ ∀ w, v.get? "numberOfValues" = some w → w = .null ∨ Q w := by
  constructor
  · rintro ⟨object, name, title, mandatory, count⟩
    obtain ⟨count, demand⟩ := may_and_iff.1 count
    exact ⟨⟨object, name, title, mandatory, count⟩, demand⟩
  · rintro ⟨⟨object, name, title, mandatory, count⟩, demand⟩
    exact ⟨object, name, title, mandatory, may_and_iff.2 ⟨count, demand⟩⟩

theorem hasKind_and_iff :
    HasKind (rules.and Q) v ↔
      HasKind rules v ∧ (v.get? "category_type" = some (.text "Simple") →
        ∀ w, v.get? "max_char" = some w → w = .null ∨ Q w) := by
  have other : ∀ {name}, v.get? "category_type" = some (.text name) → name ≠ "Simple" →
      v.get? "category_type" ≠ some (.text "Simple") := by
    rintro name tag ne simple
    rw [tag] at simple
    simp_all
  constructor
  · rintro (⟨tag, type, maxChar, pattern⟩ | ⟨tag, values⟩ | ⟨tag, subtype, referenceName, values⟩ |
      ⟨tag, subtype, dependsOn⟩)
    · obtain ⟨maxChar, demand⟩ := may_and_iff.1 maxChar
      exact ⟨.simple tag type maxChar pattern, fun _ => demand⟩
    · exact ⟨.list tag values, fun simple => absurd simple (other tag (by decide))⟩
    · exact ⟨.independent tag subtype referenceName values,
        fun simple => absurd simple (other tag (by decide))⟩
    · exact ⟨.dependent tag subtype dependsOn, fun simple => absurd simple (other tag (by decide))⟩
  · rintro ⟨⟨tag, type, maxChar, pattern⟩ | ⟨tag, values⟩ | ⟨tag, subtype, referenceName, values⟩ |
      ⟨tag, subtype, dependsOn⟩, demand⟩
    · exact .simple tag type (may_and_iff.2 ⟨maxChar, demand tag⟩) pattern
    · exact .list tag values
    · exact .independent tag subtype referenceName values
    · exact .dependent tag subtype dependsOn

theorem isCategory_iff :
    IsCategory rules v ↔ HasHead rules v ∧ HasKind rules v ∧
      v.May "sub_categories" (IsListOf 1 fun _ => True) ∧
        ∀ c, IsChild c v → IsCategory rules c :=
  ⟨fun ⟨head, kind, lists, each⟩ => ⟨head, kind, lists, each⟩,
    fun ⟨head, kind, lists, each⟩ => ⟨head, kind, lists, each⟩⟩

/-- A demand on the integers of a category is one on its integer fields, on
all levels. -/
theorem isCategory_and_iff (v : Json) :
    IsCategory (rules.and Q) v ↔
      IsCategory rules v ∧ ∀ c, Within v c → ∀ w, CategoryInteger c w → w = .null ∨ Q w := by
  induction hd : v.depth using Nat.strongRecOn generalizing v with
  | ind d ih =>
    have below : (∀ c, IsChild c v → IsCategory (rules.and Q) c) ↔
        ∀ c, IsChild c v → IsCategory rules c ∧
          ∀ e, Within c e → ∀ w, CategoryInteger e w → w = .null ∨ Q w := by
      refine forall₂_congr fun c child => ?_
      have shallower := depth_child_lt child
      exact ih c.depth (by omega) c rfl
    rw [isCategory_iff, hasHead_and_iff, hasKind_and_iff, below, isCategory_iff (v := v)]
    constructor
    · rintro ⟨⟨head, count⟩, ⟨kind, letters⟩, lists, each⟩
      refine ⟨⟨head, kind, lists, fun c child => (each c child).1⟩, ?_⟩
      intro c within w field
      rcases within_iff.1 within with rfl | ⟨d, child, lower⟩
      · exact field.elim (count w) fun simple => letters simple.1 w simple.2
      · exact (each d child).2 c lower w field
    · rintro ⟨⟨head, kind, lists, each⟩, demand⟩
      refine ⟨⟨head, fun w found => demand v .here w (.inl found)⟩,
        ⟨kind, fun tag w found => demand v .here w (.inr ⟨tag, found⟩)⟩, lists, ?_⟩
      exact fun c child => ⟨each c child,
        fun e lower => demand e (within_iff.2 (.inr ⟨c, child, lower⟩))⟩

theorem isScreening_and_iff :
    IsScreening (rules.and Q) v ↔
      IsScreening rules v ∧ (∀ w, v.get? "review_per_paper" = some w → Q w) ∧
        ∀ w, v.get? "validation_percentage" = some w → w = .null ∨ Q w := by
  constructor
  · rintro ⟨object, ⟨n, found, amount, demand⟩, conflictType, conflictResolution,
      exclusionCriteria, sourcePapers, searchStrategy, percentage, assignmentMode, phases⟩
    obtain ⟨percentage, demands⟩ := may_and_iff.1 percentage
    refine ⟨⟨object, ⟨n, found, amount⟩, conflictType, conflictResolution, exclusionCriteria,
      sourcePapers, searchStrategy, percentage, assignmentMode, phases⟩, ?_, demands⟩
    intro w there
    rwa [← Option.some.inj (found.symm.trans there)]
  · rintro ⟨⟨object, ⟨n, found, amount⟩, conflictType, conflictResolution, exclusionCriteria,
      sourcePapers, searchStrategy, percentage, assignmentMode, phases⟩, demand, demands⟩
    exact ⟨object, ⟨n, found, amount, demand n found⟩, conflictType, conflictResolution,
      exclusionCriteria, sourcePapers, searchStrategy, may_and_iff.2 ⟨percentage, demands⟩,
      assignmentMode, phases⟩

/-- The integers by value of a document are written as such when each of its
integer fields that is not null is a word. -/
theorem isProtocol_written_iff :
    IsProtocol .written v ↔
      IsProtocol .byValue v ∧ ∀ w, IntegerField v w → w = .null ∨ IsWord w := by
  rw [written_eq]
  constructor
  · rintro ⟨object, project, screening, quality, ⟨u, found, tops, rfl, count, trees⟩, reporting⟩
    -- being written as an integer is asked of the integer fields only
    have plain := fun c mem => (isCategory_and_iff c).1 (trees c mem)
    refine ⟨⟨object, project, ?_, quality,
      ⟨_, found, tops, rfl, count, fun c mem => (plain c mem).1⟩, reporting⟩, ?_⟩
    · exact fun s there => (screening s there).imp_right fun h => (isScreening_and_iff.1 h).1
    · rintro w (⟨part, field⟩ | ⟨part, field⟩ | ⟨⟨items, there, top, mem, within⟩, field⟩)
      · rcases screening _ part with rfl | h
        · cases field
        · exact .inr ((isScreening_and_iff.1 h).2.1 w field)
      · rcases screening _ part with rfl | h
        · cases field
        · exact (isScreening_and_iff.1 h).2.2 w field
      · cases found.symm.trans there
        exact (plain top mem).2 _ within w field
  · rintro ⟨⟨object, project, screening, quality, ⟨u, found, tops, rfl, count, trees⟩, reporting⟩,
      demand⟩
    refine ⟨object, project, ?_, quality, ⟨_, found, tops, rfl, count, ?_⟩, reporting⟩
    · intro s there
      refine (screening s there).imp_right fun h => isScreening_and_iff.2 ⟨h, ?_, ?_⟩
      · intro w field
        obtain ⟨n, given, amount⟩ := h.reviewPerPaper
        obtain rfl := Option.some.inj (given.symm.trans field)
        obtain ⟨x, rfl, -⟩ := amount
        exact (demand _ (.reviewPerPaper there field)).resolve_left (by simp)
      · exact fun w field => demand w (.validationPercentage there field)
    · intro c mem
      refine (isCategory_and_iff c).2 ⟨trees c mem, ?_⟩
      exact fun e within w field => demand w (.category ⟨tops, found, c, mem, within⟩ field)

end Grammar

/-! ## §2. The first two passes. -/

namespace Validator

theorem eraseDups_eq_nil_iff {errors : List FieldError} : errors.eraseDups = [] ↔ errors = [] := by
  cases errors <;> simp [List.eraseDups_cons]

theorem grammarErrors_eq_nil_iff : grammarErrors v = [] ↔ IsProtocol .byValue v := by
  rw [grammarErrors, eraseDups_eq_nil_iff, List.map_eq_nil_iff,
    ProtocolGrammar.violations_eq_nil_iff]

/-- Errors that were reported stay, and the first one is never left out. -/
theorem foldl_addUnlessReported_eq_nil_iff {errors found : List FieldError} :
    found.foldl addUnlessReported errors = [] ↔ errors = [] ∧ found = [] := by
  induction found generalizing errors with
  | nil => simp
  | cons e rest ih =>
    rw [List.foldl_cons, ih]
    cases errors with
    | nil => simp [addUnlessReported]
    | cons e' later =>
      simp only [addUnlessReported]
      split <;> simp

theorem errors_eq_nil_iff :
    errors v = [] ↔ IsProtocol .byValue v ∧ ReferencesResolve v := by
  rw [errors, foldl_addUnlessReported_eq_nil_iff, grammarErrors_eq_nil_iff, List.map_eq_nil_iff]
  refine and_congr_right fun form => References.findings_eq_nil_iff ?_
  rintro r ⟨reports, found, mem⟩
  rcases form.reporting _ found with absent | ⟨items, same, -, each⟩
  · cases absent
  · cases same
    exact each r mem

/-! ## §3. The verdict. -/

theorem exists_mapError_eq_ok_iff {ε δ α : Type} {x : Except ε α} {f : ε → δ} :
    (∃ a, x.mapError f = .ok a) ↔ ∃ a, x = .ok a := by
  cases x <;> simp [Except.mapError]

/-- A document without errors is accepted when it is read. -/
theorem validate_iff_of_errors (clean : errors v = []) :
    (∃ p, validate v = .ok p) ↔ ReviewProtocol.decode.Reads .free v := by
  rw [validate, clean]
  exact exists_mapError_eq_ok_iff

/-- An accepted document is without errors, and is what was read. -/
theorem validate_eq_ok_iff {p : ReviewProtocol} :
    validate v = .ok p ↔ errors v = [] ∧ ReviewProtocol.decode .free v = .ok p := by
  unfold validate
  split
  next clean =>
    rw [clean, and_iff_right rfl]
    cases ReviewProtocol.decode .free v <;> simp [Except.mapError]
  next found unclean => exact ⟨nofun, fun h => absurd h.1 unclean⟩

/-- An accepted document is a protocol of the grammar. -/
theorem isProtocol_of_validate {p : ReviewProtocol} (proper : v.IsProper)
    (h : validate v = .ok p) : IsProtocol .written v := by
  obtain ⟨clean, read⟩ := validate_eq_ok_iff.1 h
  exact (reads_protocol_iff proper (errors_eq_nil_iff.1 clean).1).1 ⟨p, read⟩

/-- A document with one category, whose values have so many letters at
most. -/
def smallDocument (letters : Number) : Json :=
  .object
    [("category", .list [.object
      [("category_type", .text "Simple"), ("mandatory", .bool true),
       ("max_char", .number letters), ("name", .text "dose"), ("type", .text "int")]]),
     ("project", .object [("name", .text "A review"), ("short_name", .text "Review")])]

/-- The number one, written with a fraction. -/
def oneAsDouble : Number := .float ⟨4607182418800017408⟩

/-- **The validator accepts exactly the protocols whose names resolve.** -/
theorem validate_accepts_iff (proper : v.IsProper) :
    (∃ p, validate v = .ok p) ↔ IsProtocol .written v ∧ ReferencesResolve v := by
  by_cases clean : errors v = []
  · obtain ⟨form, resolve⟩ := errors_eq_nil_iff.1 clean
    rw [validate_iff_of_errors clean, reads_protocol_iff proper form, and_iff_left resolve]
  · constructor
    · rintro ⟨p, accepted⟩
      unfold validate at accepted
      split at accepted
      · contradiction
      · cases accepted
    · rintro ⟨form, resolve⟩
      exact absurd (errors_eq_nil_iff.2 ⟨(isProtocol_written_iff.1 form).1, resolve⟩) clean

theorem smallDocument_isProtocol :
    IsProtocol .written (smallDocument (.int 1)) ∧
      ReferencesResolve (smallDocument (.int 1)) := by
  have clean : errors (smallDocument (.int 1)) = [] := by
    rw [errors, grammarErrors, ProtocolGrammar.grammar_eq]
    decide +kernel
  exact (validate_accepts_iff (by decide)).1 ((validate_iff_of_errors clean).2 ⟨_, rfl⟩)

/-- **What passes the grammar and the names is accepted, unless an integer
of it is not written as one or does not fit its word.**  Then the answer is
one error about the document as a whole. -/
theorem validate_of_no_errors (proper : v.IsProper) (clean : errors v = []) :
    ((∃ p, validate v = .ok p) ↔ ∀ w, IntegerField v w → w = .null ∨ IsWord w) ∧
      ((∃ w, IntegerField v w ∧ w ≠ .null ∧ ¬IsWord w) →
        ∃ cause, validate v = .error (atRoot ("invalid protocol: " ++ cause))) := by
  have form := (errors_eq_nil_iff.1 clean).1
  have accepted : (∃ p, validate v = .ok p) ↔ ∀ w, IntegerField v w → w = .null ∨ IsWord w := by
    rw [validate_iff_of_errors clean, reads_protocol_iff proper form, isProtocol_written_iff,
      and_iff_right form]
  refine ⟨accepted, ?_⟩
  rintro ⟨w, field, given, long⟩
  have refused : ¬∃ p, validate v = .ok p :=
    fun h => (accepted.1 h w field).elim given long
  simp only [validate, clean] at refused ⊢
  cases h : ReviewProtocol.decode .free v with
  | ok p => exact absurd ⟨p, by rw [h]; rfl⟩ refused
  | error e => exact ⟨e.message, rfl⟩

theorem errors_oneAsDouble : errors (smallDocument oneAsDouble) = [] := by
  rw [errors, grammarErrors, ProtocolGrammar.grammar_eq]
  decide +kernel

theorem smallDocument_at_root :
    ∃ cause, validate (smallDocument oneAsDouble) =
      .error (atRoot ("invalid protocol: " ++ cause)) := by
  refine (validate_of_no_errors (by decide) errors_oneAsDouble).2
    ⟨.number oneAsDouble, .category ⟨_, rfl, _, List.mem_cons_self, .here⟩ (.inr ⟨rfl, rfl⟩), ?_⟩
  simp [IsWord, oneAsDouble]

/-- One letter, written `1.0`, passes the grammar and the names, and is then
refused without a place. -/
theorem smallDocument_refused :
    (smallDocument oneAsDouble).IsProper ∧ errors (smallDocument oneAsDouble) = [] ∧
      validate (smallDocument oneAsDouble) =
        .error (atRoot "invalid protocol: invalid type: floating point `1.0`, expected u32") := by
  have read : ReviewProtocol.decode .free (smallDocument oneAsDouble) =
      .error (.wrongType (.number oneAsDouble) "u32") := rfl
  have wording : (DecodeError.wrongType (.number oneAsDouble) "u32").message =
      "invalid type: floating point `1.0`, expected u32" := by decide +kernel
  refine ⟨by decide, errors_oneAsDouble, ?_⟩
  rw [validate, errors_oneAsDouble, read]
  show Except.error (atRoot ("invalid protocol: " ++ DecodeError.message _)) = _
  rw [wording]
  rfl

end Validator

end LiteratureReview
