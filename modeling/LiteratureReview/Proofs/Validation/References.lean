/-
  LiteratureReview.Proofs.Validation.References
  ─────────────────────────────────────────────
  When the names of a document are names of categories.

  The walks that collect names and look for faults pass over whatever has
  not the form it should have.  They are compared here with the relation
  `Within`, by induction on depth:

    • `mem_namesOf_iff` — the names found are those of the categories that
      stand somewhere in the tree,
    • `inCategory_eq_nil_iff` — no fault is found when no dependent list
      of the tree has one,
    • `findings_eq_nil_iff` — the same for documents.
-/
import LiteratureReview.Proofs.Protocol.Grammar
import LiteratureReview.Validation.References

namespace LiteratureReview.References

open Json Grammar

variable {v c : Json} {name key target : String} {names : List String} {place : Pointer}

/-! ## §1. Looking into values. -/

theorem textAt_eq_some_iff : textAt v key = some name ↔ v.get? key = some (.text name) := by
  unfold textAt
  cases v.get? key with
  | none => simp
  | some w => cases w <;> simp [asText?]

theorem mem_listAt_iff :
    c ∈ listAt v key ↔ ∃ items, v.get? key = some (.list items) ∧ c ∈ items := by
  unfold listAt
  cases v.get? key with
  | none => simp
  | some w => cases w <;> simp [asList?]

/-! ## §2. Names. -/

theorem namesBelow_eq (members : List (String × Json)) :
    namesBelow members = ((members.lookup "sub_categories").map namesWithin).getD [] := by
  induction members with
  | nil => rfl
  | cons m rest ih =>
    obtain ⟨k, w⟩ := m
    rw [namesBelow, List.lookup_cons]
    by_cases hk : k = "sub_categories"
    · subst hk
      simp
    · rw [if_neg hk, beq_false_of_ne (Ne.symm hk), ih]

theorem mem_namesOfAll_iff {items : List Json} :
    name ∈ namesOfAll items ↔ ∃ c ∈ items, name ∈ namesOf c := by
  induction items with
  | nil => simp [namesOfAll]
  | cons w rest ih => simp [namesOfAll, ih]

/-- One level: the category's own name, and the names of its children. -/
theorem mem_namesOf_step :
    name ∈ namesOf v ↔
      v.get? "name" = some (.text name) ∨ ∃ c, IsChild c v ∧ name ∈ namesOf c := by
  cases v with
  | object members =>
    rw [namesOf, List.mem_append, Option.mem_toList, namesBelow_eq]
    refine or_congr (textAt_eq_some_iff (v := .object members)) ?_
    simp only [IsChild, get?]
    cases members.lookup "sub_categories" with
    | none => simp
    | some w =>
      cases w with
      | list items =>
        simp only [Option.map_some, Option.getD_some, namesWithin, mem_namesOfAll_iff]
        constructor
        · rintro ⟨c, mem, named⟩
          exact ⟨c, ⟨items, rfl, mem⟩, named⟩
        · rintro ⟨c, ⟨_, same, mem⟩, named⟩
          cases same
          exact ⟨c, mem, named⟩
      | _ => simp [namesWithin]
  | _ => simp [namesOf, IsChild, get?]

theorem mem_namesOf_iff (v : Json) :
    name ∈ namesOf v ↔ ∃ c, Within v c ∧ c.get? "name" = some (.text name) := by
  induction hd : v.depth using Nat.strongRecOn generalizing v with
  | ind d ih =>
    have below : (∃ c, IsChild c v ∧ name ∈ namesOf c) ↔
        ∃ c, IsChild c v ∧ ∃ e, Within c e ∧ e.get? "name" = some (.text name) := by
      refine exists_congr fun c => and_congr_right fun child => ?_
      have shallower := depth_child_lt child
      exact ih c.depth (by omega) c rfl
    rw [mem_namesOf_step, below]
    constructor
    · rintro (own | ⟨c, child, e, within, named⟩)
      · exact ⟨v, .here, own⟩
      · exact ⟨e, within_iff.2 (.inr ⟨c, child, within⟩), named⟩
    · rintro ⟨e, within, named⟩
      rcases within_iff.1 within with rfl | ⟨c, child, lower⟩
      · exact .inl named
      · exact .inr ⟨c, child, e, lower, named⟩

theorem mem_categoryNames_iff {document : Json} :
    name ∈ categoryNames document ↔ NamesCategory document name := by
  rw [categoryNames, mem_namesOfAll_iff]
  constructor
  · rintro ⟨top, mem, named⟩
    obtain ⟨tops, found, mem⟩ := mem_listAt_iff.1 mem
    obtain ⟨c, within, named⟩ := (mem_namesOf_iff top).1 named
    exact ⟨c, ⟨tops, found, top, mem, within⟩, named⟩
  · rintro ⟨c, ⟨tops, found, top, mem, within⟩, named⟩
    exact ⟨top, mem_listAt_iff.2 ⟨tops, found, mem⟩, (mem_namesOf_iff top).2 ⟨c, within, named⟩⟩

/-! ## §3. Dependent lists. -/

/-- What a category depends on, if it does, is another of some names. -/
def DependencyHolds (names : List String) (c : Json) : Prop :=
  IsDependentList c → ∀ target, c.get? "depends_on" = some (.text target) →
    c.get? "name" ≠ some (.text target) ∧ target ∈ names

theorem isDependent_iff : isDependent c = true ↔ IsDependentList c := by
  simp [isDependent, IsDependentList, textAt_eq_some_iff]

theorem dependency_eq_nil_iff : dependency names place c = [] ↔ DependencyHolds names c := by
  unfold dependency DependencyHolds
  rw [← isDependent_iff]
  by_cases dependent : isDependent c = true
  · rw [if_pos dependent]
    simp only [dependent, true_imp_iff, ne_eq, ← textAt_eq_some_iff]
    cases textAt c "depends_on" with
    | none => simp
    | some t =>
      by_cases self : textAt c "name" = some t
      · simp [self]
      · by_cases known : t ∈ names <;> simp [self, known]
  · simp [dependent]

theorem belowCategory_eq (members : List (String × Json)) :
    belowCategory names place members =
      ((members.lookup "sub_categories").map
        (withinList names (place ++ [.member "sub_categories"]))).getD [] := by
  induction members with
  | nil => rfl
  | cons m rest ih =>
    obtain ⟨k, w⟩ := m
    rw [belowCategory, List.lookup_cons]
    by_cases hk : k = "sub_categories"
    · subst hk
      simp
    · rw [if_neg hk, beq_false_of_ne (Ne.symm hk), ih]

theorem inCategories_eq_nil_iff {items : List Json} {index : Nat} {P : Json → Prop}
    (each : ∀ c ∈ items, ∀ place, inCategory names place c = [] ↔ P c) :
    inCategories names place index items = [] ↔ ∀ c ∈ items, P c := by
  induction items generalizing index with
  | nil => simp [inCategories]
  | cons c rest ih =>
    rw [inCategories, List.append_eq_nil_iff, List.forall_mem_cons,
      each c List.mem_cons_self, ih fun e mem => each e (List.mem_cons_of_mem _ mem)]

/-- One level: what the category depends on, and the same for its children. -/
theorem inCategory_step {P : Json → Prop}
    (each : ∀ c, IsChild c v → ∀ place, inCategory names place c = [] ↔ P c) :
    inCategory names place v = [] ↔ DependencyHolds names v ∧ ∀ c, IsChild c v → P c := by
  cases v with
  | object members =>
    rw [inCategory, List.append_eq_nil_iff, dependency_eq_nil_iff, belowCategory_eq]
    refine and_congr_right fun _ => ?_
    simp only [IsChild, get?] at each ⊢
    cases found : members.lookup "sub_categories" with
    | none => simp
    | some w =>
      cases w with
      | list items =>
        rw [Option.map_some, Option.getD_some, withinList, inCategories_eq_nil_iff
          fun c mem => each c ⟨items, found, mem⟩]
        simp
      | _ => simp [withinList]
  | _ => simp [inCategory, DependencyHolds, IsDependentList, IsChild, get?]

theorem inCategory_eq_nil_iff (v : Json) (place : Pointer) :
    inCategory names place v = [] ↔ ∀ c, Within v c → DependencyHolds names c := by
  induction hd : v.depth using Nat.strongRecOn generalizing v place with
  | ind d ih =>
    rw [inCategory_step (P := fun c => ∀ e, Within c e → DependencyHolds names e)]
    · constructor
      · rintro ⟨own, below⟩ c within
        rcases within_iff.1 within with rfl | ⟨d, child, lower⟩
        · exact own
        · exact below d child c lower
      · intro all
        exact ⟨all v .here, fun c child e lower => all e (within_iff.2 (.inr ⟨c, child, lower⟩))⟩
    · intro c child place
      have shallower := depth_child_lt child
      exact ih c.depth (by omega) c place rfl

/-! ## §4. Reports and documents. -/

theorem inReport_eq_nil_iff {report : Json} :
    inReport names place report = [] ↔
      ∀ key ∈ targetKeys report, ∀ target, report.get? key = some (.text target) →
        target ∈ names := by
  rw [inReport, List.flatMap_eq_nil_iff]
  refine forall₂_congr fun key _ => ?_
  simp only [← textAt_eq_some_iff]
  cases textAt report key with
  | none => simp
  | some t => by_cases known : t ∈ names <;> simp [known]

/-- What names categories in a report, by its tag. -/
theorem targetKeys_of_isReport {report : Json} (h : IsReport report) :
    key ∈ targetKeys report ↔ key = "value" ∨
      (key = "reference" ∧ report.get? "report_type" = some (.text "Compared")) := by
  rcases h with ⟨tag, -⟩ | ⟨tag, -, -⟩
  · have tagged := textAt_eq_some_iff.2 tag
    simp [targetKeys, tagged, tag]
  · have tagged := textAt_eq_some_iff.2 tag
    simp [targetKeys, tagged, tag]

/-- Faults in categories are dependencies that do not hold. -/
theorem inCategories_document_eq_nil_iff (document : Json) :
    inCategories (categoryNames document) [.member "category"] 0 (listAt document "category") =
        [] ↔
      ∀ c, CategoryOf document c → DependencyHolds (categoryNames document) c := by
  rw [inCategories_eq_nil_iff fun c _ place => inCategory_eq_nil_iff c place]
  constructor
  · rintro each c ⟨tops, found, top, mem, within⟩
    exact each top (mem_listAt_iff.2 ⟨tops, found, mem⟩) c within
  · intro each top mem c within
    obtain ⟨tops, found, mem⟩ := mem_listAt_iff.1 mem
    exact each c ⟨tops, found, top, mem, within⟩

/-- Faults in reports are targets that no category has for a name. -/
theorem inReports_document_eq_nil_iff (document : Json) :
    ((listAt document "reporting").mapIdx fun i report =>
        inReport (categoryNames document) [.member "reporting", .element i] report).flatten = [] ↔
      ∀ r, ReportOf document r → ∀ key ∈ targetKeys r, ∀ target,
        r.get? key = some (.text target) → target ∈ categoryNames document := by
  rw [List.flatten_eq_nil_iff]
  constructor
  · rintro clean r ⟨items, found, mem⟩
    have listed : listAt document "reporting" = items := by simp [listAt, found, asList?]
    obtain ⟨i, hi, rfl⟩ := List.getElem_of_mem mem
    have none := clean _ (List.mem_mapIdx.2 ⟨i, by rwa [listed], rfl⟩)
    simp only [listed] at none
    exact inReport_eq_nil_iff.1 none
  · rintro each faults mem
    obtain ⟨i, hi, rfl⟩ := List.mem_mapIdx.1 mem
    exact inReport_eq_nil_iff.2 (each _ (mem_listAt_iff.1 (List.getElem_mem hi)))

/-- **No fault is found in a document exactly when its names resolve.** -/
theorem findings_eq_nil_iff {document : Json} (reports : ∀ r, ReportOf document r → IsReport r) :
    findings document = [] ↔ ReferencesResolve document := by
  rw [findings, List.append_eq_nil_iff, inCategories_document_eq_nil_iff,
    inReports_document_eq_nil_iff]
  simp only [DependencyHolds, mem_categoryNames_iff]
  constructor
  · rintro ⟨dependent, named⟩
    refine ⟨fun c target of list found => dependent c of list target found, ?_, ?_⟩
    · intro r target of found
      exact named r of "value" ((targetKeys_of_isReport (reports r of)).2 (.inl rfl)) target found
    · intro r target of tag found
      exact named r of "reference"
        ((targetKeys_of_isReport (reports r of)).2 (.inr ⟨rfl, tag⟩)) target found
  · rintro ⟨dependent, values, references⟩
    refine ⟨fun c of list target found => dependent c target of list found, ?_⟩
    intro r of key mem target found
    rcases (targetKeys_of_isReport (reports r of)).1 mem with rfl | ⟨rfl, tag⟩
    · exact values r target of found
    · exact references r target of tag found

end LiteratureReview.References
