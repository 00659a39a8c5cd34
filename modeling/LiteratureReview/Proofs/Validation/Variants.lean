/-
  LiteratureReview.Proofs.Validation.Variants
  ───────────────────────────────────────────
  Categories and reports are held against the variant that they name.

  A category is looked at when the tags of all categories above it name
  variants (`CategoryAt`).  Then the violations at its place and below are
  those of the union of categories (`violationsBelow_category`), and of a
  union only the variant that the tag names speaks (`Dispatches`).  The
  errors that are reported below a place are these violations, each of them
  once (`errorsBelow_eq`).
-/
import LiteratureReview.Proofs.Schema.Dispatch
import LiteratureReview.Proofs.Validation.Listing

namespace LiteratureReview.Validator

open Json Grammar Schema ProtocolGrammar

variable {v x : Json} {p : Pointer}

/-! ## §1. Places of categories and reports. -/

/-- The tags of a category name one of its variants. -/
def HasKnownTags (c : Json) : Prop :=
  (∃ name ∈ ["Simple", "List"], c.get? "category_type" = some (.text name)) ∨
    c.get? "category_type" = some (.text "DynamicList") ∧
      ∃ name ∈ ["Independent", "Dependent"], c.get? "dynamic_subtype" = some (.text name)

/-- A document has a value at the place of a category: in its list of categories, or in the list
of children of a category with known tags. -/
inductive CategoryAt (v : Json) : Pointer → Json → Prop where
  | top {items : List Json} {i : Nat} {x : Json} (held : v.get? "category" = some (.list items))
      (there : items[i]? = some x) : CategoryAt v [.member "category", .element i] x
  | child {p : Pointer} {c : Json} {items : List Json} {i : Nat} {x : Json}
      (above : CategoryAt v p c) (known : HasKnownTags c)
      (held : c.get? "sub_categories" = some (.list items)) (there : items[i]? = some x) :
      CategoryAt v (p ++ [.member "sub_categories", .element i]) x

/-- A document has a value at the place of a report. -/
inductive ReportAt (v : Json) : Pointer → Json → Prop where
  | listed {items : List Json} {i : Nat} {x : Json} (held : v.get? "reporting" = some (.list items))
      (there : items[i]? = some x) : ReportAt v [.member "reporting", .element i] x

/-- An element of a list stands two steps below. -/
theorem at?_element {c : Json} {key : String} {items : List Json} {i : Nat}
    (held : c.get? key = some (.list items)) (there : items[i]? = some x) :
    c.at? [.member key, .element i] = some x := by
  rw [at?, step?, held, Option.bind_some, at?, step?]
  simp only [there]
  rfl

theorem CategoryAt.stands (here : CategoryAt v p x) : v.at? p = some x := by
  induction here with
  | top held there => exact at?_element held there
  | child _ _ held there ih => rw [at?_append, ih, Option.bind_some, at?_element held there]

theorem ReportAt.stands (here : ReportAt v p x) : v.at? p = some x := by
  cases here with
  | listed held there => exact at?_element held there

/-! ## §2. Violations and errors below a place. -/

/-- The violations of the grammar at a place and below. -/
def violationsBelow (v : Json) (p : Pointer) : List Violation :=
  (grammar.violations v).filter (Violation.isBelow p)

/-- The errors of the grammar that are reported at a place and below. -/
def errorsBelow (v : Json) (p : Pointer) : List FieldError :=
  (grammarErrors v).filter fun e => IsAtOrBelow p.render e.path

/-- What is reported below a place of the document are the violations there, each of them
once. -/
theorem errorsBelow_eq (stands : v.at? p = some x) :
    errorsBelow v p = ((violationsBelow v p).map Violation.toFieldError).eraseDups := by
  have same : ∀ y ∈ grammar.violations v,
      decide (IsAtOrBelow p.render y.toFieldError.path) = y.isBelow p := by
    intro y mem
    obtain ⟨w, there⟩ := stands_of_mem_violations mem
    exact decide_eq_decide.2 (Pointer.isAtOrBelow_iff stands there)
  rw [errorsBelow, grammarErrors, filter_eraseDups, List.filter_map, violationsBelow,
    ← List.filter_congr same]
  rfl

theorem violations_reference {name : String} {s : Schema}
    (defined : document.definitions.lookup name = some s) :
    violations document.answer (reference name) p x = violations document.answer s p x := by
  rw [reference, violations, violationsAll, violationsAll, List.append_nil, violations,
    SchemaDocument.answer_eq isRanked_document defined]

/-- **Below an element of a list of the document are the violations of the element.** -/
theorem violationsBelow_of_list {schemas : List (String × Schema)} {keys : List String}
    {key name : String} {list s : Schema} {items : List Json} {i : Nat}
    (whole : document.root = record schemas keys) (distinct : (schemas.map (·.1)).Nodup)
    (listed : schemas.lookup key = some list) (form : IsListOf (reference name) list)
    (defined : document.definitions.lookup name = some s)
    (held : v.get? key = some (.list items)) (there : items[i]? = some x) :
    violationsBelow v [.member key, .element i] =
      violations document.answer s [.member key, .element i] x := by
  rw [violationsBelow, grammar_eq, SchemaDocument.violations_eq isRanked_document, whole,
    ← violations_reference defined]
  exact filter_element_of_record (p := []) document.shifts_answer distinct listed form held there

/-- Under a known tag a union of the grammar finds what the definition of the content finds. -/
theorem violations_variant (content : String) (s : Schema) {tag name : String}
    {variants : List (String × String)} (distinct : (variants.map (·.1)).Nodup)
    (listed : (name, content) ∈ variants)
    (defined : document.definitions.lookup content = some s)
    (found : x.get? tag = some (.text name)) :
    violations document.answer (taggedUnion tag variants) p x =
      violations document.answer s p x := by
  rw [violations_of_tag distinct listed found, SchemaDocument.answer_eq isRanked_document defined]

/-- A category with known tags is held against a record that has children. -/
theorem violations_category_of_known {c : Json} (known : HasKnownTags c) :
    ∃ schemas keys, (schemas.map (·.1)).Nodup ∧ schemas.lookup "sub_categories" = some children ∧
      violations document.answer category p c =
        violations document.answer (record schemas keys) p c := by
  rcases known with ⟨name, mem, found⟩ | ⟨dynamic, name, mem, found⟩
  · rcases List.mem_pair.1 mem with rfl | rfl
    · refine ⟨_, _, ?_, rfl, violations_variant "SimpleCategory" simpleCategory (by decide)
        (by decide) rfl found⟩
      decide
    · refine ⟨_, _, ?_, rfl, violations_variant "ListCategory" listCategory (by decide)
        (by decide) rfl found⟩
      decide
  · have list : violations document.answer category p c =
        violations document.answer dynamicList p c :=
      violations_variant "DynamicList" dynamicList (by decide) (by decide) rfl dynamic
    rcases List.mem_pair.1 mem with rfl | rfl
    · refine ⟨_, _, ?_, rfl, list.trans (violations_variant "IndependentList" independentList
        (by decide) (by decide) rfl found)⟩
      decide
    · refine ⟨_, _, ?_, rfl, list.trans (violations_variant "DependentList" dependentList
        (by decide) (by decide) rfl found)⟩
      decide

/-- **Below the place of a category are the violations of the union of categories**, by
induction on its depth. -/
theorem violationsBelow_category (here : CategoryAt v p x) :
    violationsBelow v p = violations document.answer category p x := by
  induction here with
  | top held there => exact violationsBelow_of_list rfl (by decide) rfl (.listOf 1) rfl held there
  | @child p c items i x above known held there ih =>
    obtain ⟨schemas, keys, distinct, listed, whole⟩ := violations_category_of_known (p := p) known
    rw [violationsBelow, ← filter_isBelow_append]
    show ((violationsBelow v p).filter _) = _
    rw [ih, whole, filter_element_of_record document.shifts_answer distinct listed (.listOrNull 1)
      held there, violations_reference (s := category) rfl]

theorem violationsBelow_report (here : ReportAt v p x) :
    violationsBelow v p = violations document.answer report p x := by
  cases here with
  | listed held there =>
    exact violationsBelow_of_list rfl (by decide) rfl .anyListOrNull rfl held there

/-! ## §3. Dispatch on the tag. -/

/-- Of a place and what is below, one violation is found and reported. -/
def FindsOnly (v : Json) (p : Pointer) (y : Violation) : Prop :=
  violationsBelow v p = [y] ∧ errorsBelow v p = [y.toFieldError]

/-- What is found at a place and below it is said by one variant of a union. -/
structure Dispatches (v : Json) (p : Pointer) (x : Json) (tag : String)
    (variants : List (String × Schema)) : Prop where
  /-- Under a known tag the violations are those of the variant, told at the place. -/
  known : ∀ name content, (name, content) ∈ variants → x.get? tag = some (.text name) →
    violationsBelow v p = document.alone content p x
  /-- A text that names no variant is the only violation. -/
  unknown : ∀ name, x.get? tag = some (.text name) → name ∉ variants.map (·.1) →
    FindsOnly v p ⟨p ++ [.member tag], .text name, .enumeration ((variants.map (·.1)).map .text)⟩
  /-- A tag that is left out is the only violation. -/
  missing : IsObject x → x.get? tag = none → FindsOnly v p ⟨p, x, .missing tag⟩
  /-- What is no object is reported once for that. -/
  plain : ¬IsObject x → OnlyNoObject p x (violationsBelow v p) ∧
    errorsBelow v p = [Violation.toFieldError ⟨p, x, .type [.object]⟩]

/-- The contents of variants, as they are defined. -/
def contentsOf (variants : List (String × String)) : List (String × Schema) :=
  variants.map fun c => (c.1, (document.definitions.lookup c.2).getD .never)

/-- Errors that are all the same are reported once. -/
theorem eraseDups_of_all_eq {α : Type} [BEq α] [LawfulBEq α] {a : α} {xs : List α}
    (some : xs ≠ []) (same : ∀ x ∈ xs, x = a) : xs.eraseDups = [a] := by
  cases xs with
  | nil => exact absurd rfl some
  | cons x rest =>
    obtain ⟨rfl, later⟩ := List.forall_mem_cons.1 same
    have none : rest.filter (fun y => !(y == x)) = [] := by
      refine List.filter_eq_nil_iff.2 fun y mem => ?_
      rw [later y mem]
      simp
    rw [List.eraseDups_cons, none, List.eraseDups_nil]

/-- **A value that is held against a union dispatches on its tag.** -/
theorem dispatches_of_union {tag : String} {variants : List (String × String)}
    (stands : v.at? p = some x)
    (isolated : violationsBelow v p = violations document.answer (taggedUnion tag variants) p x)
    (distinct : (variants.map (·.1)).Nodup)
    (defined : ∀ c ∈ variants, (document.definitions.lookup c.2).isSome = true)
    (contents : ¬IsObject x → ∀ c ∈ variants, OnlyNoObject p x (document.answer c.2 p x)) :
    Dispatches v p x tag (contentsOf variants) := by
  have names : (contentsOf variants).map (·.1) = variants.map (·.1) := by
    rw [contentsOf, List.map_map]
    rfl
  have only : ∀ y, violationsBelow v p = [y] → FindsOnly v p y := by
    intro y one
    refine ⟨one, ?_⟩
    rw [errorsBelow_eq stands, one]
    rfl
  refine ⟨fun name content listed found => ?_, fun name found unknown => only _ ?_,
    fun object absent => only _ ?_, fun plain => ?_⟩
  · obtain ⟨c, mem, same⟩ := List.mem_map.1 listed
    cases same
    obtain ⟨s, there⟩ := Option.isSome_iff_exists.1 (defined c mem)
    rw [isolated, violations_variant c.2 s distinct mem there found, there, Option.getD_some,
      document.alone_eq isRanked_document]
  · rw [names] at unknown ⊢
    rw [isolated, violations_of_unknown_tag found unknown]
  · rw [isolated, violations_of_missing_tag object absent]
  · have same : OnlyNoObject p x (violationsBelow v p) := by
      rw [isolated]
      exact violations_of_not_object plain (contents plain)
    refine ⟨same, ?_⟩
    rw [errorsBelow_eq stands]
    refine eraseDups_of_all_eq (mt List.map_eq_nil_iff.1 same.1) fun e mem => ?_
    obtain ⟨y, found, rfl⟩ := List.mem_map.1 mem
    rw [same.2 y found]

theorem onlyNoObject_record {name : String} {schemas : List (String × Schema)} {keys : List String}
    (defined : document.definitions.lookup name = some (record schemas keys))
    (plain : ¬IsObject x) : OnlyNoObject p x (document.answer name p x) := by
  rw [SchemaDocument.answer_eq isRanked_document defined]
  exact violations_record_of_not_object plain

theorem onlyNoObject_dynamicList (plain : ¬IsObject x) :
    ∀ c ∈ [("Independent", "IndependentList"), ("Dependent", "DependentList")],
      OnlyNoObject p x (document.answer c.2 p x) := by
  intro c mem
  rcases List.mem_pair.1 mem with rfl | rfl
  · exact onlyNoObject_record rfl plain
  · exact onlyNoObject_record rfl plain

/-- **Tagged unions report inside the chosen variant only.**  What is reported at the place of a
category or a report and below it are the violations of the grammar there, each of them once; and
these are decided by the tag of the value, and, for dynamic lists, by the second tag in the same
way. -/
theorem unions_report_inside_variant (v : Json) :
    (∀ p x, CategoryAt v p x ∨ ReportAt v p x →
      errorsBelow v p = ((violationsBelow v p).map Violation.toFieldError).eraseDups) ∧
    (∀ p x, CategoryAt v p x →
      Dispatches v p x "category_type"
        [("Simple", simpleCategory), ("List", listCategory), ("DynamicList", dynamicList)] ∧
      (x.get? "category_type" = some (.text "DynamicList") →
        Dispatches v p x "dynamic_subtype"
          [("Independent", independentList), ("Dependent", dependentList)])) ∧
    ∀ p x, ReportAt v p x →
      Dispatches v p x "report_type" [("Simple", simpleReport), ("Compared", comparedReport)] := by
  refine ⟨fun p x here => ?_, fun p x here => ⟨?_, fun dynamic => ?_⟩, fun p x here => ?_⟩
  · exact errorsBelow_eq (here.elim CategoryAt.stands ReportAt.stands)
  · refine dispatches_of_union here.stands (violationsBelow_category here) (by decide) (by decide)
      fun plain c mem => ?_
    simp only [List.mem_cons, List.not_mem_nil, or_false] at mem
    rcases mem with rfl | rfl | rfl
    · exact onlyNoObject_record rfl plain
    · exact onlyNoObject_record rfl plain
    -- the content is a union itself
    · rw [SchemaDocument.answer_eq isRanked_document (s := dynamicList) rfl]
      exact violations_of_not_object plain (onlyNoObject_dynamicList plain)
  · have isolated := (violationsBelow_category here).trans
      (violations_variant "DynamicList" dynamicList (by decide) (by decide) rfl dynamic)
    exact dispatches_of_union here.stands isolated (by decide) (by decide) onlyNoObject_dynamicList
  · refine dispatches_of_union here.stands (violationsBelow_report here) (by decide) (by decide)
      fun plain c mem => ?_
    rcases List.mem_pair.1 mem with rfl | rfl
    · exact onlyNoObject_record rfl plain
    · exact onlyNoObject_record rfl plain

/-- A category with two children, the first of an unknown type, and the second a number. -/
def oddParent : Json :=
  .object [("category_type", .text "Simple"),
    ("sub_categories", .list [.object [("category_type", .text "Table")], .number (.int 3)])]

def oddDocument : Json := .object [("category", .list [oddParent])]

/-- Where the children stand. -/
def oddPlace (i : Nat) : Pointer :=
  [.member "category", .element 0, .member "sub_categories", .element i]

/-- Of each child one error is reported. -/
theorem unions_report_inside_variant_oddDocument :
    (errorsBelow oddDocument (oddPlace 0)).map (·.path) =
        ["/category/0/sub_categories/0/category_type"] ∧
      errorsBelow oddDocument (oddPlace 1) =
        [⟨"/category/0/sub_categories/1", "3 is not of type \"object\""⟩] := by
  have dispatch := (unions_report_inside_variant oddDocument).2.1
  have top : CategoryAt oddDocument [.member "category", .element 0] oddParent := .top rfl rfl
  have known : HasKnownTags oddParent := .inl ⟨"Simple", List.mem_cons_self, rfl⟩
  constructor
  · have child : CategoryAt oddDocument (oddPlace 0) _ := top.child (i := 0) known rfl rfl
    rw [((dispatch _ _ child).1.unknown "Table" rfl (by decide)).2]
    decide +kernel
  · have child : CategoryAt oddDocument (oddPlace 1) _ := top.child (i := 1) known rfl rfl
    rw [((dispatch _ _ child).1.plain nofun).2]
    decide +kernel

end LiteratureReview.Validator
