/-
  LiteratureReview.Proofs.Validation.Repair
  ─────────────────────────────────────────
  Defaults repair the gaps they are meant for, and nothing else.

  What is put into a gap has the form that the grammar asks for there, since
  the settings are held to the same conditions (`violations_categories`,
  `violations_criteria`).  So of the errors of the grammar those about the
  gaps go and the others stay, in their order (`grammarErrors_fill`).  Of the
  names that are looked up, the one of the new field is found from then on
  (`findings_fill`).
-/
import LiteratureReview.Proofs.Schema.Members
import LiteratureReview.Proofs.Settings.Conditions
import LiteratureReview.Proofs.Validation.Listing

namespace LiteratureReview

open Json Grammar

/-! ## §1. Errors about a key. -/

/-- A pointer into an object is told from others by its text, also where it leads to nothing. -/
theorem Pointer.eq_of_render_member {v w o : Json} {p q : Pointer} {key : String}
    (here : v.at? p = some o) (object : IsObject o) (stands : v.at? q = some w)
    (same : q.render = (p ++ [Step.member key]).render) : q = p ++ [.member key] := by
  have below : IsAtOrBelow p.render q.render :=
    same ▸ isAtOrBelow_of_prefix (List.prefix_append p _)
  obtain ⟨rest, rfl⟩ := (isAtOrBelow_iff here stands).1 below
  have letters := congrArg String.toList same
  rw [toList_render_append, toList_render_append, List.append_cancel_left_eq] at letters
  rw [at?_append, here, Option.bind_some] at stands
  obtain ⟨members, rfl⟩ := object
  cases rest with
  | nil =>
    rw [toList_render_cons] at letters
    cases letters
  | cons s rest =>
    rw [toList_render_cons, toList_render_cons] at letters
    obtain ⟨bodies, others⟩ := append_inj_of_slash s.slash_not_mem_body
      (Step.slash_not_mem_body _) (head_toList_render rest) (head_toList_render [])
      (List.cons.inj letters).2
    -- of an object only the members can be reached
    obtain ⟨x, inside, -⟩ := Option.bind_eq_some_iff.1 stands
    cases s with
    | element index => cases inside
    | member k =>
      rw [Step.escape_injective (String.toList_injective bodies)]
      cases rest with
      | nil => rfl
      | cons t rest =>
        rw [toList_render_cons] at others
        cases others

/-- The error says that a key is missing from the object at a place, or is told of what stands
under the key. -/
def FieldError.isAbout (p : Pointer) (key : String) (e : FieldError) : Bool :=
  e = ⟨p.render, printText key ++ " is a required property"⟩ ||
    e.path = (p ++ [Step.member key]).render

/-- What is about a key of a place is at the place or below it. -/
theorem Violation.isBelow_of_isAbout {x : Violation} {p : Pointer} {key : String}
    (about : x.isAbout p key = true) : x.isBelow p = true := by
  rw [isAbout, Bool.or_eq_true, decide_eq_true_eq, decide_eq_true_eq] at about
  rw [isBelow, decide_eq_true_eq]
  rcases about with same | here
  · rw [show x.place = p from congrArg Prod.fst same]
  · rw [here]
    exact List.prefix_append p _

/-- Of the violations of the grammar, those about a key are known by what is told of them. -/
theorem Validator.isAbout_toFieldError {v o : Json} {x : Violation} {p : Pointer} {key : String}
    (found : x ∈ Validator.grammar.violations v) (here : v.at? p = some o) (object : IsObject o) :
    x.toFieldError.isAbout p key = x.isAbout p key := by
  have claims : x.toFieldError = ⟨p.render, printText key ++ " is a required property"⟩ ↔
      x.claim = (p, (Breach.missing key).wording) := by
    rw [ProtocolGrammar.grammar_eq] at found
    have known := SchemaDocument.isBy_of_mem_violations found
    have left : x.IsBy (.missing key :: ProtocolGrammar.document.breaches) [] v :=
      ⟨known.stands, List.mem_cons_of_mem _ known.breaks⟩
    have right : Violation.IsBy ⟨p, o, .missing key⟩
        (.missing key :: ProtocolGrammar.document.breaches) [] v :=
      ⟨⟨p, rfl, here⟩, List.mem_cons_self⟩
    refine Violation.IsBy.toFieldError_eq_iff (fun b mem => ?_) left right
    rcases List.mem_cons.1 mem with rfl | listed
    · exact isTold_missing key
    · exact isTold_of_mem_breaches b listed
  have places : x.toFieldError.path = (p ++ [Step.member key]).render ↔
      x.place = p ++ [.member key] := by
    obtain ⟨w, stands⟩ := stands_of_mem_violations found
    exact ⟨Pointer.eq_of_render_member here object stands, fun same => congrArg Pointer.render same⟩
  rw [FieldError.isAbout, Violation.isAbout, decide_eq_decide.2 claims, decide_eq_decide.2 places]

/-- Violations are chosen before or after they are told. -/
theorem told_filter {xs : List Violation} {f : Violation → Bool} {g : FieldError → Bool}
    (same : ∀ x ∈ xs, g x.toFieldError = f x) : told (xs.filter f) = (told xs).filter g := by
  rw [told, told, List.filter_map]
  exact congrArg _ (List.filter_congr fun x mem => (same x mem).symm)

/-! ## §2. What is put into a gap. -/

namespace DefaultsSettings

open Schema ProtocolGrammar

variable {d : DefaultsSettings} {v : Json} {p : Pointer}

/-- Schemas of the grammar are answered as they are decided. -/
theorem violations_eq_nil_of_holds {s : Schema}
    (holds : s.holds (fun name v => document.knows (document.references v) name v) v = true) :
    violations document.answer s p v = [] := by
  have answers :
      Answers document.answer fun name v => document.knows (document.references v) name v :=
    fun name p v => document.answers_lookup _ name p v
  rw [← List.isEmpty_iff, isEmpty_violations answers, holds]

/-- The field that is put in the place of categories. -/
def newField (d : DefaultsSettings) : Json :=
  .object
    [("category_type", .text "Simple"), ("mandatory", .bool false),
     ("name", .text d.extractionField.name), ("title", .text d.extractionField.title),
     ("type", .text d.extractionField.type)]

theorem categories_eq (d : DefaultsSettings) : d.categories = .list [d.newField] := by
  simp only [categories, newField, ofMembers, List.foldl, insertMember, String.reduceLT,
    String.reduceEq, reduceIte]

/-- The field of valid settings is a simple category. -/
theorem isCategory_newField (valid : ({ defaults := d } : Settings).validate = .ok ()) :
    IsCategory .byValue d.newField := by
  obtain ⟨-, name, type, -⟩ := Settings.validate_eq_ok_iff.1 valid
  have scalar : d.extractionField.type ∈ scalarNames := by
    rw [List.contains_iff_mem] at type
    exact type
  have titled : d.newField.get? "title" = some (.text d.extractionField.title) := rfl
  have head : HasHead .byValue d.newField :=
    { object := ⟨_, rfl⟩
      name := ⟨_, rfl, _, rfl, name⟩
      title := fun w found => .inr ⟨_, (Option.some.inj (titled.symm.trans found)).symm⟩
      mandatory := ⟨.bool false, rfl, false, rfl⟩
      numberOfValues := nofun }
  refine .node head (.simple rfl ⟨_, rfl, _, scalar, rfl⟩ nofun nofun) nofun ?_
  rintro c ⟨children, found, -⟩
  cases found

/-- **The field of valid settings fits where categories are asked for.** -/
theorem violations_categories (valid : ({ defaults := d } : Settings).validate = .ok ()) :
    violations document.answer (listOf 1 (reference "Category")) p d.categories = [] := by
  rw [categories_eq]
  refine violations_eq_nil_of_holds (holds_listOf_iff.2 ⟨_, rfl, le_rfl, fun c mem => ?_⟩)
  obtain rfl := List.mem_singleton.1 mem
  have enough : 3 * d.newField.depth + 4 ≤ document.references d.newField := by
    have depth : d.newField.depth = 1 := rfl
    rw [depth]
    show 7 ≤ (d.newField.depth + 1) * 21
    omega
  exact holds_reference.trans
    ((knows_category_iff (fun _ _ found => found) _ enough).2 (isCategory_newField valid))

/-- **The criterion of valid settings fits where criteria are asked for.** -/
theorem violations_criteria (valid : ({ defaults := d } : Settings).validate = .ok ()) :
    violations document.answer (listOf 1 (reference "NamedEntry")) p d.criteria = [] := by
  obtain ⟨-, -, -, criterion, -⟩ := Settings.validate_eq_ok_iff.1 valid
  refine violations_eq_nil_of_holds (holds_listOf_iff.2 ⟨_, rfl, le_rfl, fun c mem => ?_⟩)
  obtain ⟨n, more⟩ : ∃ n, document.references c = n + 1 :=
    ⟨document.references c - 1, by rw [SchemaDocument.references_eq]; omega⟩
  refine holds_reference.trans ?_
  rw [more, knows_entry_iff fun _ _ found => found]
  obtain rfl := List.mem_singleton.1 mem
  refine ⟨⟨_, rfl⟩, _, rfl, _, rfl, ?_⟩
  intro empty
  rw [empty] at criterion
  cases criterion

/-- A gap is complained of as a whole where a list is asked for. -/
theorem takesWhole_listOf {s : Schema} {least : Nat} :
    TakesWhole document.answer (listOf least s) := by
  intro p w gap x found
  -- there are no elements to complain of
  have none : violations document.answer (.elements s) p w = [] := by
    cases w with
    | list items =>
      cases items with
      | nil => rfl
      | cons item rest => cases gap
    | _ => rfl
  rw [Schema.listOf, violations, violationsAll, none] at found
  simp only [violationsAll, List.append_nil, List.nil_append, List.mem_append] at found
  exact found.elim place_of_mem_demand place_of_mem_demand

/-! ## §3. Errors of the grammar. -/

/-- The document has a screening section, and no criteria in it. -/
def lacksCriteria (v : Json) : Bool :=
  match v.get? "screening" with
  | some (.object members) => isGap (members.lookup "exclusion_criteria")
  | _ => false

/-- The error is about a gap that the settings fill. -/
def isRepaired (v : Json) (e : FieldError) : Bool :=
  isGap (v.get? "category") && e.isAbout [] "category" ||
    lacksCriteria v && e.isAbout [.member "screening"] "exclusion_criteria"

theorem lacksCriteria_congr {w : Json} (same : w.get? "screening" = v.get? "screening") :
    lacksCriteria w = lacksCriteria v := by
  rw [lacksCriteria, lacksCriteria, same]

theorem grammar_violations (v : Json) :
    Validator.grammar.violations v = violations document.answer root [] v := by
  rw [grammar_eq, SchemaDocument.violations_eq isRanked_document]
  rfl

/-- Filling in the categories takes away the errors about them. -/
theorem told_fillGap_categories (valid : ({ defaults := d } : Settings).validate = .ok ())
    (object : IsObject v) :
    told (Validator.grammar.violations (fillGap "category" d.categories v)) =
      (told (Validator.grammar.violations v)).filter fun e =>
        !(isGap (v.get? "category") && e.isAbout [] "category") := by
  cases gap : isGap (v.get? "category") with
  | false =>
    rw [fillGap_of_not_isGap gap]
    simp
  | true =>
    rw [← told_filter (f := fun x => !x.isAbout [] "category") fun x found => by
        rw [Validator.isAbout_toFieldError found rfl object, Bool.true_and],
      grammar_violations, grammar_violations]
    exact told_fillGap document.shifts_answer (s := listOf 1 (reference "Category")) rfl
      (by decide) takesWhole_listOf (violations_categories valid) object gap

/-- An object is no null. -/
theorem violations_referenceOrNull {name : String} {s : Schema}
    (defined : document.definitions.lookup name = some s) (object : IsObject v) :
    violations document.answer (referenceOrNull name) p v = violations document.answer s p v := by
  have test : (violations document.answer (.all [.negate (.all [.type [.null]])]) p v).isEmpty =
      true := by
    obtain ⟨members, rfl⟩ := object
    simp [violations, violationsAll, demand, ValueType.holds]
  rw [referenceOrNull, violations, violationsAll, violationsAll, List.append_nil, violations,
    if_pos test, violations, violationsAll, violationsAll, List.append_nil, violations,
    SchemaDocument.answer_eq isRanked_document defined]

theorem lacksCriteria_of_isObject {s : Json} (there : v.get? "screening" = some s)
    (object : IsObject s) : lacksCriteria v = isGap (s.get? "exclusion_criteria") := by
  obtain ⟨members, rfl⟩ := object
  rw [lacksCriteria, there]
  rfl

theorem lacksCriteria_of_not_isObject (plain : ∀ s, v.get? "screening" = some s → ¬IsObject s) :
    lacksCriteria v = false := by
  unfold lacksCriteria
  split
  next members found => exact absurd ⟨members, rfl⟩ (plain _ found)
  next => rfl

/-- Inside the screening section. -/
theorem told_fillGap_criteria {s : Json} (valid : ({ defaults := d } : Settings).validate = .ok ())
    (object : IsObject s) :
    told (violations document.answer (referenceOrNull "ScreeningConfig") p
        (fillGap "exclusion_criteria" d.criteria s)) =
      told ((violations document.answer (referenceOrNull "ScreeningConfig") p s).filter fun x =>
        !(isGap (s.get? "exclusion_criteria") && x.isAbout p "exclusion_criteria")) := by
  rw [violations_referenceOrNull (s := screening) rfl (isObject_fillGap_iff.2 object),
    violations_referenceOrNull (s := screening) rfl object]
  cases gap : isGap (s.get? "exclusion_criteria") with
  | false =>
    rw [fillGap_of_not_isGap gap]
    simp
  | true =>
    simp only [Bool.true_and]
    exact told_fillGap document.shifts_answer (s := listOf 1 (reference "NamedEntry")) rfl
      (by decide) takesWhole_listOf (violations_criteria valid) object gap

/-- Filling in the criteria takes away the errors about them. -/
theorem told_fillScreening (valid : ({ defaults := d } : Settings).validate = .ok ()) :
    told (Validator.grammar.violations (d.fillScreening v)) =
      (told (Validator.grammar.violations v)).filter fun e =>
        !(lacksCriteria v && e.isAbout [.member "screening"] "exclusion_criteria") := by
  by_cases part : ∃ s, v.get? "screening" = some s ∧ IsObject s
  · obtain ⟨s, there, object⟩ := part
    have here : v.at? [.member "screening"] = some s := by
      rw [at?, step?, there]
      rfl
    rw [fillScreening_of_isObject d there object, lacksCriteria_of_isObject there object,
      ← told_filter (f := fun x => !(isGap (s.get? "exclusion_criteria") &&
        x.isAbout [.member "screening"] "exclusion_criteria")) fun x found => by
          rw [Validator.isAbout_toFieldError found here object],
      grammar_violations, grammar_violations]
    refine told_set document.shifts_answer (s := referenceOrNull "ScreeningConfig") rfl
      (by decide) there (told_fillGap_criteria valid object) fun x elsewhere => ?_
    have other : x.isAbout [.member "screening"] "exclusion_criteria" = false := by
      rw [Bool.eq_false_iff]
      intro about
      have below := Violation.isBelow_of_isAbout about
      rw [List.nil_append] at elsewhere
      rw [below] at elsewhere
      cases elsewhere
    rw [other, Bool.and_false]
    rfl
  · have plain : ∀ s, v.get? "screening" = some s → ¬IsObject s :=
      fun s found object => part ⟨s, found, object⟩
    rw [fillScreening_of_not_isObject d plain, lacksCriteria_of_not_isObject plain]
    simp

/-- **Of the errors of the grammar, those about gaps go when the gaps are filled**, and the others
stay in their order. -/
theorem grammarErrors_fill (valid : ({ defaults := d } : Settings).validate = .ok ())
    (object : IsObject v) :
    Validator.grammarErrors (d.fill v) =
      (Validator.grammarErrors v).filter fun e => !isRepaired v e := by
  have screening : lacksCriteria (fillGap "category" d.categories v) = lacksCriteria v :=
    lacksCriteria_congr (get?_fillGap_of_ne (by decide))
  have filled : told (Validator.grammar.violations (d.fill v)) =
      (told (Validator.grammar.violations v)).filter fun e => !isRepaired v e := by
    rw [fill, told_fillScreening valid, told_fillGap_categories valid object, screening,
      List.filter_filter]
    refine List.filter_congr fun e _ => ?_
    rw [isRepaired, Bool.not_or, Bool.and_comm]
  rw [Validator.grammarErrors, Validator.grammarErrors, filter_eraseDups]
  exact congrArg _ filled

/-! ## §4. Names. -/

end DefaultsSettings

namespace References

variable {v w : Json}

/-- The finding is that a report is on a category of this name. -/
def Finding.isTarget (name : String) (f : Finding) : Bool :=
  match f.fault with
  | .unknownReportTarget _ target => target = name
  | .dependsOnItself _ | .unknownDependency _ => false

theorem listAt_congr {key : String} (same : w.get? key = v.get? key) :
    listAt w key = listAt v key := by
  rw [listAt, listAt, same]

/-- A gap lists nothing. -/
theorem listAt_of_isGap {key : String} (gap : isGap (v.get? key) = true) : listAt v key = [] := by
  unfold listAt
  revert gap
  cases v.get? key with
  | none => exact fun _ => rfl
  | some w =>
    intro gap
    cases w with
    | list items =>
      cases items with
      | nil => rfl
      | cons item rest => cases gap
    | _ => rfl

/-- Findings are made of the categories and the reports. -/
theorem findings_congr (categories : w.get? "category" = v.get? "category")
    (reports : w.get? "reporting" = v.get? "reporting") : findings w = findings v := by
  rw [findings_eq, findings_eq, categoryNames, categoryNames, listAt_congr categories,
    listAt_congr reports]

/-- With one name more, the reports on it are on a category. -/
theorem inMember_cons {names : List String} {name key : String} {place : Pointer} {report : Json} :
    inMember (name :: names) place report key =
      (inMember names place report key).filter fun f => !f.isTarget name := by
  unfold inMember
  cases textAt report key with
  | none => rfl
  | some target =>
    simp only [List.contains_cons]
    by_cases same : target = name
    · subst same
      by_cases known : target ∈ names <;> simp [known, Finding.isTarget]
    · by_cases known : target ∈ names <;> simp [known, same, Finding.isTarget]

theorem inReport_cons {names : List String} {name : String} {place : Pointer} {report : Json} :
    inReport (name :: names) place report =
      (inReport names place report).filter fun f => !f.isTarget name := by
  rw [inReport_eq, inReport_eq, List.filter_flatMap]
  exact List.flatMap_congr fun key _ => inMember_cons

theorem inReports_cons {names : List String} {name : String} {reports : List Json} :
    inReports (name :: names) reports =
      (inReports names reports).filter fun f => !f.isTarget name := by
  rw [inReports, inReports, List.filter_flatten, List.mapIdx_eq_zipIdx_map,
    List.mapIdx_eq_zipIdx_map, List.map_map]
  simp only [inReport_cons, Function.comp_def]

end References

namespace DefaultsSettings

open References

variable {d : DefaultsSettings} {v : Json}

/-- The new field depends on nothing and has nothing below. -/
theorem inCategories_newField (names : List String) (place : Pointer) :
    inCategories names place 0 [d.newField] = [] := by
  rw [inCategories, inCategories, inCategory_eq]
  rfl

/-- **With a gap in the place of categories filled, reports may be on the new field**; the other
findings are those from before. -/
theorem findings_fill (object : IsObject v) :
    findings (d.fill v) = (findings v).filter fun f =>
      !(isGap (v.get? "category") && f.isTarget d.extractionField.name) := by
  have reports : (d.fill v).get? "reporting" = v.get? "reporting" :=
    (d.get?_fill (by decide)).trans (get?_fillGap_of_ne (by decide))
  cases gap : isGap (v.get? "category") with
  | false =>
    have categories : (d.fill v).get? "category" = v.get? "category" := by
      rw [d.get?_fill (by decide), fillGap_of_not_isGap gap]
    rw [findings_congr categories reports]
    simp
  | true =>
    have before : listAt v "category" = [] := listAt_of_isGap gap
    have after : (d.fill v).get? "category" = some d.categories := by
      rw [d.get?_fill (by decide), get?_fillGap object, if_pos ⟨rfl, gap⟩]
    have list : listAt (d.fill v) "category" = [d.newField] := by
      rw [listAt, after, categories_eq]
      rfl
    have names : namesOfAll [d.newField] = [d.extractionField.name] := rfl
    rw [findings_eq, findings_eq, categoryNames, categoryNames, list, before, names,
      inCategories_newField, listAt_congr reports, inReports_cons]
    rfl

/-! ## §5. Repair. -/

/-- **Defaults repair the gaps they are meant for.**  When the gaps of an object are filled from
valid settings, the errors of the grammar are those from before, in their order, without those
about the gaps; and of the names that were looked for in vain, only the one of the new field is
found. -/
theorem defaults_repair_gaps (d : DefaultsSettings) (v : Json)
    (valid : ({ defaults := d } : Settings).validate = .ok ()) (object : IsObject v) :
    Validator.grammarErrors (d.fill v) =
        (Validator.grammarErrors v).filter (fun e => !isRepaired v e) ∧
      findings (d.fill v) = (findings v).filter fun f =>
        !(isGap (v.get? "category") && f.isTarget d.extractionField.name) :=
  ⟨grammarErrors_fill valid object, findings_fill object⟩

/-- A report on a category of this name. -/
def reportOn (name : String) : Json :=
  .object [("chart", .list [.text "bar"]), ("name", .text "Report"),
    ("report_type", .text "Simple"), ("value", .text name)]

/-- Two gaps, beside a short name that is none and reports on categories that are not there. -/
def gappyDocument : Json :=
  .object
    [("category", .null),
     ("project", .object [("name", .text "Review"), ("short_name", .text "1st")]),
     ("reporting", .list [reportOn "notes", reportOn "year"]),
     ("screening", .object [("conflict_resolution", .text "Unanimity"),
       ("conflict_type", .text "Decision"), ("exclusion_criteria", .list [])])]

/-- Where the grammar is violated. -/
def violatedPaths (v : Json) : List String := (Validator.grammarErrors v).map (·.path)

/-- What has no gap is complained of before and after, and so is the report on no field. -/
theorem defaults_repair_gaps_gappyDocument :
    ({} : Settings).validate = .ok () ∧
      violatedPaths gappyDocument =
        ["/category", "/project/short_name", "/screening/exclusion_criteria", "/screening"] ∧
      violatedPaths (fill {} gappyDocument) = ["/project/short_name", "/screening"] ∧
      (findings gappyDocument).map (·.place.render) =
        ["/reporting/0/value", "/reporting/1/value"] ∧
      (findings (fill {} gappyDocument)).map (·.place.render) = ["/reporting/1/value"] := by
  have valid : ({} : Settings).validate = .ok () := by decide +kernel
  obtain ⟨grammar, names⟩ := defaults_repair_gaps {} gappyDocument valid ⟨_, rfl⟩
  rw [violatedPaths, violatedPaths, grammar, names, Validator.grammarErrors,
    ProtocolGrammar.grammar_eq]
  exact ⟨valid, by decide +kernel⟩

end DefaultsSettings

end LiteratureReview
