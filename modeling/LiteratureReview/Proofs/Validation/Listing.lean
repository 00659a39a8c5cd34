/-
  LiteratureReview.Proofs.Validation.Listing
  ──────────────────────────────────────────
  The list of errors of a document.

  Looking up names reports no place twice (`pairwise_findings`), and only
  places that the document has (`stands_of_mem_findings`).  So adding the
  findings to the errors of the grammar one by one is appending those whose
  places the grammar says nothing of (`foldl_addUnlessReported_eq`), and the
  list can be told in advance (`validate_lists_errors`).
-/
import LiteratureReview.Proofs.Json.Resolution
import LiteratureReview.Proofs.Schema.RowGrammars
import LiteratureReview.Proofs.Validation.Paths
import LiteratureReview.Proofs.Validation.Verdict

namespace LiteratureReview

open Json

/-! ## §1. Places of findings. -/

namespace References

variable {names : List String} {place : Pointer} {f : Finding}

/-- The finding stands at or below a place, in the value there. -/
def Finding.StandsIn (f : Finding) (place : Pointer) (v : Json) : Prop :=
  ∃ rest w, f.place = place ++ rest ∧ v.at? rest = some w

/-- A finding in the value one step further in. -/
theorem Finding.StandsIn.inside {s : Step} {v w : Json} (step : v.step? s = some w)
    (h : f.StandsIn (place ++ [s]) w) : f.StandsIn place v := by
  obtain ⟨rest, u, same, stands⟩ := h
  refine ⟨s :: rest, u, ?_, ?_⟩
  · rw [same, List.append_assoc, List.singleton_append]
  · rw [Json.at?, step, Option.bind_some, stands]

/-- Two findings at different places. -/
def Apart (f g : Finding) : Prop := f.place ≠ g.place

/-- Findings behind different steps are at different places. -/
theorem apart_of_steps {f g : Finding} {s t : Step} {v w : Json} (differ : s ≠ t)
    (left : f.StandsIn (place ++ [s]) v) (right : g.StandsIn (place ++ [t]) w) : Apart f g := by
  obtain ⟨rest, _, first, -⟩ := left
  obtain ⟨others, _, second, -⟩ := right
  intro same
  rw [first, second, List.append_assoc, List.append_assoc] at same
  exact differ (List.cons.inj (List.append_cancel_left same)).1

/-- What stands under a key is found wrong at most once. -/
def OnceUnder (key : String) (place : Pointer) (v : Json) (found : List Finding) : Prop :=
  found = [] ∨ ∃ fault w, v.get? key = some w ∧ found = [⟨place ++ [.member key], fault⟩]

namespace OnceUnder

variable {key : String} {v : Json} {found : List Finding}

theorem stands (once : OnceUnder key place v found) (mem : f ∈ found) :
    ∃ w, v.step? (.member key) = some w ∧ f.StandsIn (place ++ [.member key]) w := by
  rcases once with rfl | ⟨fault, w, there, rfl⟩
  · cases mem
  · obtain rfl := List.mem_singleton.1 mem
    exact ⟨w, there, [], w, (List.append_nil _).symm, rfl⟩

theorem pairwise (once : OnceUnder key place v found) : found.Pairwise Apart := by
  rcases once with rfl | ⟨fault, w, -, rfl⟩
  · exact .nil
  · exact List.pairwise_singleton _ _

end OnceUnder

theorem once_dependency (v : Json) :
    OnceUnder "depends_on" place v (dependency names place v) := by
  unfold dependency
  split
  next dependent =>
    cases target : textAt v "depends_on" with
    | none => exact .inl rfl
    | some t =>
      have there := textAt_eq_some_iff.1 target
      simp only
      split
      next self => exact .inr ⟨_, _, there, rfl⟩
      next other =>
        split
        next known => exact .inl rfl
        next unknown => exact .inr ⟨_, _, there, rfl⟩
  next => exact .inl rfl

/-- What is wrong with the name under a key of a report. -/
def inMember (names : List String) (place : Pointer) (report : Json) (key : String) :
    List Finding :=
  match textAt report key with
  | none => []
  | some target =>
    if names.contains target then []
    else [⟨place ++ [.member key],
      .unknownReportTarget ((textAt report "name").getD "") target⟩]

theorem once_inMember (report : Json) (key : String) :
    OnceUnder key place report (inMember names place report key) := by
  unfold inMember
  cases target : textAt report key with
  | none => exact .inl rfl
  | some t =>
    simp only
    split
    next known => exact .inl rfl
    next unknown => exact .inr ⟨_, _, textAt_eq_some_iff.1 target, rfl⟩

theorem inReport_eq (report : Json) :
    inReport names place report = (targetKeys report).flatMap (inMember names place report) :=
  rfl

/-- A finding in some categories is one in a category of a number. -/
theorem mem_inCategories {items : List Json} {index : Nat}
    (mem : f ∈ inCategories names place index items) :
    ∃ i c, items[i]? = some c ∧ f ∈ inCategory names (place ++ [.element (index + i)]) c := by
  induction items generalizing index with
  | nil => cases mem
  | cons c rest ih =>
    rw [inCategories, List.mem_append] at mem
    rcases mem with first | later
    · exact ⟨0, c, rfl, first⟩
    · obtain ⟨i, e, there, found⟩ := ih later
      refine ⟨i + 1, e, there, ?_⟩
      rwa [Nat.add_assoc, Nat.add_comm 1 i] at found

/-- The categories of a list stand in the list. -/
theorem step?_listAt {v c : Json} {key : String} {i : Nat} (there : (listAt v key)[i]? = some c) :
    ∃ list, v.step? (.member key) = some list ∧ list.step? (.element i) = some c := by
  unfold listAt at there
  cases found : v.get? key with
  | none =>
    rw [found] at there
    cases there
  | some w =>
    rw [found] at there
    cases w with
    | list items => exact ⟨_, found, there⟩
    | _ => cases there

/-- **A finding in a category stands in it**, by induction on depth. -/
theorem stands_of_mem_inCategory (v : Json) :
    ∀ place : Pointer, ∀ f ∈ inCategory names place v, f.StandsIn place v := by
  induction v using depth_induction with
  | step v ih =>
    intro place f mem
    rw [inCategory_eq, List.mem_append] at mem
    rcases mem with own | below
    · obtain ⟨w, there, stands⟩ := (once_dependency v).stands own
      exact stands.inside there
    · obtain ⟨i, c, there, found⟩ := mem_inCategories below
      obtain ⟨list, first, second⟩ := step?_listAt there
      rw [Nat.zero_add] at found
      have inner := ih c (depth_lt_of_mem_listAt (List.mem_of_getElem? there)) _ f found
      exact (inner.inside second).inside first

theorem stands_of_mem_inCategories {items : List Json} {index : Nat}
    (mem : f ∈ inCategories names place index items) :
    ∃ i c, items[i]? = some c ∧ f.StandsIn (place ++ [.element (index + i)]) c := by
  obtain ⟨i, c, there, found⟩ := mem_inCategories mem
  exact ⟨i, c, there, stands_of_mem_inCategory c _ f found⟩

/-- Findings in different categories of a list are apart, and so are all when those in each are. -/
theorem pairwise_inCategories {items : List Json} {index : Nat}
    (each : ∀ c ∈ items, ∀ place, (inCategory names place c).Pairwise Apart) :
    (inCategories names place index items).Pairwise Apart := by
  induction items generalizing index with
  | nil => exact .nil
  | cons c rest ih =>
    rw [inCategories, List.pairwise_append]
    refine ⟨each c List.mem_cons_self _,
      ih fun e mem => each e (List.mem_cons_of_mem _ mem), fun f first g later => ?_⟩
    obtain ⟨i, e, -, stands⟩ := stands_of_mem_inCategories later
    have numbers : index ≠ index + 1 + i := by omega
    exact apart_of_steps (mt Step.element.inj numbers) (stands_of_mem_inCategory c _ f first) stands

/-- **No place of a category is found twice**, by induction on depth. -/
theorem pairwise_inCategory (v : Json) :
    ∀ place : Pointer, (inCategory names place v).Pairwise Apart := by
  induction v using depth_induction with
  | step v ih =>
    intro place
    rw [inCategory_eq, List.pairwise_append]
    refine ⟨?_, ?_, fun f own g below => ?_⟩
    · exact (once_dependency v).pairwise
    · exact pairwise_inCategories fun c mem => ih c (depth_lt_of_mem_listAt mem)
    · obtain ⟨i, c, there, stands⟩ := stands_of_mem_inCategories below
      obtain ⟨list, -, second⟩ := step?_listAt there
      rw [Nat.zero_add] at stands
      obtain ⟨w, -, here⟩ := (once_dependency v).stands own
      exact apart_of_steps (by decide) here (stands.inside second)

/-- A finding in a report stands in it. -/
theorem stands_of_mem_inReport {report : Json} (mem : f ∈ inReport names place report) :
    f.StandsIn place report := by
  rw [inReport_eq] at mem
  obtain ⟨key, -, found⟩ := List.mem_flatMap.1 mem
  obtain ⟨w, there, stands⟩ := (once_inMember report key).stands found
  exact stands.inside there

/-- No place of a report is found twice. -/
theorem pairwise_inReport (report : Json) : (inReport names place report).Pairwise Apart := by
  have keys : (targetKeys report).Nodup := by
    unfold targetKeys
    split <;> decide
  rw [inReport_eq, List.pairwise_flatMap]
  refine ⟨fun key _ => (once_inMember report key).pairwise,
    keys.imp fun {key other} differ f left g right => ?_⟩
  obtain ⟨_, -, first⟩ := (once_inMember report key).stands left
  obtain ⟨_, -, second⟩ := (once_inMember report other).stands right
  exact apart_of_steps (mt Step.member.inj differ) first second

/-- The findings in the reports of a document. -/
def inReports (names : List String) (reports : List Json) : List Finding :=
  (reports.mapIdx fun i report => inReport names [.member "reporting", .element i] report).flatten

theorem findings_eq (document : Json) :
    findings document =
      inCategories (categoryNames document) [.member "category"] 0 (listAt document "category") ++
        inReports (categoryNames document) (listAt document "reporting") :=
  rfl

theorem stands_of_mem_inReports {reports : List Json} (mem : f ∈ inReports names reports) :
    ∃ i r, reports[i]? = some r ∧ f.StandsIn [.member "reporting", .element i] r := by
  obtain ⟨found, listed, mem⟩ := List.mem_flatten.1 mem
  obtain ⟨i, small, rfl⟩ := List.mem_mapIdx.1 listed
  exact ⟨i, _, List.getElem?_eq_getElem small, stands_of_mem_inReport mem⟩

theorem pairwise_inReports (reports : List Json) : (inReports names reports).Pairwise Apart := by
  rw [inReports, List.pairwise_flatten]
  constructor
  · intro found listed
    obtain ⟨i, small, rfl⟩ := List.mem_mapIdx.1 listed
    exact pairwise_inReport _
  · rw [List.pairwise_iff_getElem]
    intro i j left right less f first g second
    rw [List.getElem_mapIdx] at first second
    have before : f.StandsIn ([.member "reporting"] ++ [.element i]) _ :=
      stands_of_mem_inReport first
    exact apart_of_steps (mt Step.element.inj less.ne) before (stands_of_mem_inReport second)

/-- A finding in a list of the document stands in the list. -/
theorem stands_in_listAt {v c : Json} {key : String} {i : Nat} (there : (listAt v key)[i]? = some c)
    (stands : f.StandsIn [.member key, .element i] c) :
    ∃ list, v.step? (.member key) = some list ∧ f.StandsIn [.member key] list := by
  obtain ⟨list, first, second⟩ := step?_listAt there
  exact ⟨list, first, Finding.StandsIn.inside second stands⟩

/-- **Every finding is at a place of the document.** -/
theorem stands_of_mem_findings {document : Json} (mem : f ∈ findings document) :
    ∃ w, document.at? f.place = some w := by
  have stands : f.StandsIn [] document := by
    rw [findings_eq, List.mem_append] at mem
    rcases mem with category | report
    · obtain ⟨i, c, there, stands⟩ := stands_of_mem_inCategories category
      rw [Nat.zero_add] at stands
      obtain ⟨list, first, inner⟩ := stands_in_listAt there stands
      exact Finding.StandsIn.inside first inner
    · obtain ⟨i, r, there, stands⟩ := stands_of_mem_inReports report
      obtain ⟨list, first, inner⟩ := stands_in_listAt there stands
      exact Finding.StandsIn.inside first inner
  obtain ⟨rest, w, same, there⟩ := stands
  rw [List.nil_append] at same
  exact ⟨w, same ▸ there⟩

/-- **No place is found twice.** -/
theorem pairwise_findings (document : Json) : (findings document).Pairwise Apart := by
  rw [findings_eq, List.pairwise_append]
  refine ⟨pairwise_inCategories fun c _ => pairwise_inCategory c, pairwise_inReports _,
    fun f category g report => ?_⟩
  obtain ⟨i, c, there, left⟩ := stands_of_mem_inCategories category
  obtain ⟨j, r, here, right⟩ := stands_of_mem_inReports report
  rw [Nat.zero_add] at left
  obtain ⟨_, -, first⟩ := stands_in_listAt there left
  obtain ⟨_, -, second⟩ := stands_in_listAt here right
  have lists : Step.member "category" ≠ Step.member "reporting" := by decide
  have outer : f.StandsIn ([] ++ [.member "category"]) _ := first
  exact apart_of_steps lists outer second

/-- The texts of the places differ, too. -/
theorem nodup_paths_findings (document : Json) :
    (((findings document).map Finding.toFieldError).map (·.path)).Nodup := by
  rw [List.map_map, List.Nodup, List.pairwise_map]
  refine (pairwise_findings document).imp_of_mem fun {f g} first second apart same => ?_
  obtain ⟨v, left⟩ := stands_of_mem_findings first
  obtain ⟨w, right⟩ := stands_of_mem_findings second
  exact apart (Pointer.eq_of_render left right same)

end References

/-! ## §2. Errors of the grammar. -/

namespace Registry

/-- What the registry says of a protocol is what the grammar says. -/
theorem validate_protocol (v : Json) :
    validate "review_protocol" v =
      if (Validator.grammar.violations v).map Violation.toFieldError = [] then .ok ()
      else .error (.invalid ⟨(Validator.grammar.violations v).map Violation.toFieldError⟩) := by
  have listed : published.lookup "review_protocol" = some ProtocolGrammar.document := rfl
  obtain ⟨s, there, read⟩ := lookup_of_reads reads_published listed
  rw [validate, schema?, there]
  simp only [read]
  rw [ProtocolGrammar.grammar_eq]
  cases ProtocolGrammar.document.violations v with
  | nil => rfl
  | cons x rest => rfl

end Registry

namespace Validator

/-- The violation is at a place of the document. -/
theorem stands_of_mem_violations {v : Json} {x : Violation} (mem : x ∈ grammar.violations v) :
    ∃ w, v.at? x.place = some w := by
  obtain ⟨rest, same, there⟩ := (SchemaDocument.isBy_of_mem_violations mem).stands
  rw [List.nil_append] at same
  exact ⟨x.value, same ▸ there⟩

/-! ## §3. The list. -/

/-- Adding errors with different paths is appending those whose paths are not there. -/
theorem foldl_addUnlessReported_eq {before found : List FieldError}
    (distinct : (found.map (·.path)).Nodup) :
    found.foldl addUnlessReported before =
      before ++ found.filter fun e => e.path ∉ before.map (·.path) := by
  induction found generalizing before with
  | nil => rw [List.foldl_nil, List.filter_nil, List.append_nil]
  | cons e rest ih =>
    rw [List.map_cons, List.nodup_cons] at distinct
    have reported : before.any (·.path == e.path) = true ↔ e.path ∈ before.map (·.path) := by
      simp [List.any_eq_true, List.mem_map]
    rw [List.foldl_cons, addUnlessReported]
    by_cases known : e.path ∈ before.map (·.path)
    · rw [if_pos (reported.2 known), ih distinct.2, List.filter_cons_of_neg (by simpa using known)]
    · -- the paths of the others are not the one that is added
      have others : (rest.filter fun f => f.path ∉ (before ++ [e]).map (·.path)) =
          rest.filter fun f => f.path ∉ before.map (·.path) := by
        refine List.filter_congr fun f mem => ?_
        have differ : f.path ≠ e.path :=
          fun same => distinct.1 (same ▸ List.mem_map_of_mem mem)
        simp [differ]
      rw [if_neg (mt reported.1 known), ih distinct.2, others,
        List.filter_cons_of_pos (by simpa using known), List.append_assoc, List.singleton_append]

/-- **The list of errors**: each violation of the grammar once, and then the findings whose
paths the grammar does not report. -/
theorem errors_eq (v : Json) :
    errors v = grammarErrors v ++
      ((References.findings v).map References.Finding.toFieldError).filter fun e =>
        e.path ∉ ((grammar.violations v).map Violation.toFieldError).map (·.path) := by
  have reported : ∀ e : FieldError, e.path ∈ (grammarErrors v).map (·.path) ↔
      e.path ∈ ((grammar.violations v).map Violation.toFieldError).map (·.path) := by
    intro e
    simp only [grammarErrors, List.mem_map, List.mem_eraseDups]
  rw [errors, foldl_addUnlessReported_eq (References.nodup_paths_findings v)]
  simp only [reported]

theorem nodup_errors (v : Json) : (errors v).Nodup := by
  rw [errors_eq, List.nodup_append]
  have distinct := References.nodup_paths_findings v
  refine ⟨nodup_eraseDups _, (List.Nodup.of_map _ distinct).filter _,
    fun e first f second same => ?_⟩
  -- what is appended has no path that is there
  have new := (List.mem_filter.1 second).2
  rw [decide_eq_true_eq] at new
  subst same
  exact new (List.mem_map_of_mem (List.mem_eraseDups.1 first))

theorem resolve_of_mem_errors {v : Json} {e : FieldError} (mem : e ∈ errors v) :
    ∃ w, v.resolve? e.path = some w := by
  rw [errors_eq, List.mem_append] at mem
  rcases mem with first | second
  · obtain ⟨x, found, rfl⟩ := List.mem_map.1 (List.mem_eraseDups.1 first)
    exact (stands_of_mem_violations found).imp fun w there => resolve?_render there
  · obtain ⟨f, found, rfl⟩ := List.mem_map.1 (List.mem_of_mem_filter second)
    exact (References.stands_of_mem_findings found).imp fun w there => resolve?_render there

/-- There are errors where the registry or the names have any. -/
theorem errors_ne_nil {v : Json}
    (wrong : Registry.validate "review_protocol" v ≠ .ok () ∨ References.findings v ≠ []) :
    errors v ≠ [] := by
  intro none
  rw [errors_eq, List.append_eq_nil_iff, grammarErrors, eraseDups_eq_nil_iff] at none
  obtain ⟨grammar, references⟩ := none
  rcases wrong with violated | found
  · rw [Registry.validate_protocol, if_pos grammar] at violated
    exact violated rfl
  · -- without violations all findings are kept
    rw [grammar, List.map_nil, List.filter_eq_self.2 (by simp), List.map_eq_nil_iff] at references
    exact found references

/-- **The list of violations is complete, without repetitions, and well addressed.**  A document
with violations of the grammar, as the registry reports them, or with findings is refused with
each of the former once and in their order, and then those of the latter whose paths the grammar
does not report.  Findings have different paths; the list has no entry twice and is not empty;
and each path leads to a value of the document. -/
theorem validate_lists_errors {v : Json}
    (wrong : Registry.validate "review_protocol" v ≠ .ok () ∨ References.findings v ≠ []) :
    ∃ grammar references listed : List FieldError,
      Registry.validate "review_protocol" v =
          (if grammar = [] then .ok () else .error (.invalid ⟨grammar⟩)) ∧
        references = (References.findings v).map References.Finding.toFieldError ∧
        listed = grammar.eraseDups ++
          references.filter (fun e => e.path ∉ grammar.map (·.path)) ∧
        validate v = .error ⟨listed⟩ ∧
        (references.map (·.path)).Nodup ∧ listed.Nodup ∧ listed ≠ [] ∧
        ∀ e ∈ listed, ∃ w, v.resolve? e.path = some w :=
  have some := errors_ne_nil wrong
  ⟨_, _, _, Registry.validate_protocol v, rfl, errors_eq v, validate_of_unclean some,
    References.nodup_paths_findings v, nodup_errors v, some,
    fun _ mem => resolve_of_mem_errors mem⟩

/-- Two lists depend on names that no category has, and the first of the names is none. -/
def tangledDocument : Json :=
  let dependent (name target : String) : Json :=
    .object [("category_type", .text "DynamicList"), ("dynamic_subtype", .text "Dependent"),
      ("name", .text name), ("depends_on", .text target), ("mandatory", .bool true)]
  .object [("category", .list [dependent "city" "1st", dependent "street" "town"])]

/-- Of the two names, the one that the grammar complains of is reported once. -/
theorem validate_lists_errors_tangled :
    ∃ listed, validate tangledDocument = .error ⟨listed⟩ ∧ listed.Nodup ∧
      listed.map (·.path) = ["/category/0/depends_on", "", "/category/1/depends_on"] := by
  have wrong : References.findings tangledDocument ≠ [] := by decide +kernel
  obtain ⟨_, _, listed, _, _, _, refused, _, distinct, -⟩ := validate_lists_errors (.inr wrong)
  have whole := refused.symm.trans (validate_of_unclean (errors_ne_nil (.inr wrong)))
  have same : listed = errors tangledDocument := ValidationErrors.mk.inj (Except.error.inj whole)
  have paths : (errors tangledDocument).map (·.path) =
      ["/category/0/depends_on", "", "/category/1/depends_on"] := by
    rw [errors, grammarErrors, ProtocolGrammar.grammar_eq]
    decide +kernel
  exact ⟨listed, refused, distinct, same ▸ paths⟩

end Validator

end LiteratureReview
