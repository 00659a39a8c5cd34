/-
  LiteratureReview.Proofs.Protocol.Grammar
  ────────────────────────────────────────
  What a protocol document is, said of JSON values directly: which keys it
  has, what stands under each of them, and how categories are nested.

  Keys that are not mentioned are ignored.  What is asked of the integers is
  a parameter (`IntegerRules`): a number such as `2.0` can count as an
  integer or not, and everything else about a document is the same.

    • `IsProtocol` — the document; `IsCategory` — its recursive part,
    • `ReferencesResolve` — the names in it that have to be names of
      categories are.
-/
import LiteratureReview.Protocol.Scalar
import LiteratureReview.Proofs.Json.Proper
import Mathlib.Tactic.MkIffOfInductiveProp

namespace LiteratureReview.Grammar

open Json

/-! ## §1. Scalars and lists. -/

def IsText (v : Json) : Prop := ∃ s, v = .text s

def IsNonEmptyText (v : Json) : Prop := ∃ s, v = .text s ∧ s ≠ ""

/-- A letter or underscore, then letters, digits or underscores. -/
def IsName (v : Json) : Prop := ∃ s, v = .text s ∧ isIdentifier s = true

def IsBool (v : Json) : Prop := ∃ b, v = .bool b

def IsNumber (v : Json) : Prop := ∃ n, v = .number n

/-- A number that is written as an integer, in a range. -/
def IsInteger (low high : Int) (v : Json) : Prop :=
  ∃ i, v = .number (.int i) ∧ low ≤ i ∧ i ≤ high

/-- A number without a fractional part, however it is written, not below
`low` and not above `high` where one is given. -/
def IsWhole (low : Int) (high : Option Int) (v : Json) : Prop :=
  ∃ n, v = .number n ∧ n.isInteger = true ∧ n.less (.int low) = false ∧
    ∀ h ∈ high, (Number.int h).less n = false

/-- One of some texts. -/
def IsOneOf (names : List String) (v : Json) : Prop := ∃ s ∈ names, v = .text s

/-- A list of so many elements at least, each of which satisfies `P`. -/
def IsListOf (least : Nat) (P : Json → Prop) (v : Json) : Prop :=
  ∃ items, v = .list items ∧ least ≤ items.length ∧ ∀ w ∈ items, P w

/-- An object of any members. -/
def IsObject (v : Json) : Prop := ∃ members, v = .object members

/-- What is asked of the integers of a document. -/
structure IntegerRules where
  /-- How many reviewers a paper has, and how many letters a value. -/
  amount : Json → Prop
  /-- The share of papers that are looked at twice. -/
  percentage : Json → Prop
  /-- How many values a field takes. -/
  valueCount : Json → Prop

/-- Integers are written without a fraction, and fit the words they are
stored in. -/
def IntegerRules.written : IntegerRules where
  amount := IsInteger 1 4294967295
  percentage := IsInteger 0 100
  valueCount := IsInteger (-1) 9223372036854775807

/-- Integers are told by their value.  A number of values has no upper
limit. -/
def IntegerRules.byValue : IntegerRules where
  amount := IsWhole 1 (some 4294967295)
  percentage := IsWhole 0 (some 100)
  valueCount := IsWhole (-1) none

/-! ## §2. The flat sections. -/

@[mk_iff] structure IsProject (v : Json) : Prop where
  object : IsObject v
  shortName : v.Has "short_name" IsName
  name : v.Has "name" IsNonEmptyText
  description : v.May "description" IsText

@[mk_iff] structure IsEntry (v : Json) : Prop where
  object : IsObject v
  name : v.Has "name" IsNonEmptyText

@[mk_iff] structure IsPhase (v : Json) : Prop where
  object : IsObject v
  title : v.Has "title" IsNonEmptyText
  description : v.May "description" IsText
  fields : v.May "fields" (IsListOf 0 IsName)

@[mk_iff] structure IsScreening (rules : IntegerRules) (v : Json) : Prop where
  object : IsObject v
  reviewPerPaper : v.Has "review_per_paper" rules.amount
  conflictType : v.Has "conflict_type" (IsOneOf ["Decision", "Criteria"])
  conflictResolution : v.Has "conflict_resolution" (IsOneOf ["Majority", "Unanimity"])
  exclusionCriteria : v.Has "exclusion_criteria" (IsListOf 1 IsEntry)
  sourcePapers : v.May "source_papers" (IsListOf 0 IsEntry)
  searchStrategy : v.May "search_strategy" (IsListOf 0 IsEntry)
  validationPercentage : v.May "validation_percentage" rules.percentage
  assignmentMode : v.May "validation_assignment_mode" (IsOneOf ["Normal", "Veto", "Info"])
  phases : v.May "phases" (IsListOf 0 IsPhase)

@[mk_iff] structure IsResponse (v : Json) : Prop where
  object : IsObject v
  title : v.Has "title" IsNonEmptyText
  score : v.Has "score" IsNumber

@[mk_iff] structure IsQuality (v : Json) : Prop where
  object : IsObject v
  questions : v.Has "question" (IsListOf 1 IsNonEmptyText)
  responses : v.Has "response" (IsListOf 1 IsResponse)
  minScore : v.Has "min_score" IsNumber

/-- What reports of both kinds have. -/
@[mk_iff] structure IsReportOn (v : Json) : Prop where
  object : IsObject v
  name : v.Has "name" IsText
  title : v.May "title" IsText
  value : v.Has "value" IsName
  charts : v.Has "chart" (IsListOf 1 (IsOneOf ["bar", "pie", "line"]))

/-- A report on one category, or on one category against another. -/
inductive IsReport (v : Json) : Prop where
  | simple (tag : v.get? "report_type" = some (.text "Simple")) (on : IsReportOn v)
  | compared (tag : v.get? "report_type" = some (.text "Compared")) (on : IsReportOn v)
      (reference : v.Has "reference" IsName)

/-! ## §3. Categories. -/

/-- The names of the scalar types. -/
def scalarNames : List String := ["int", "text", "string", "bool", "real", "date"]

/-- What every category has, its children apart. -/
@[mk_iff] structure HasHead (rules : IntegerRules) (v : Json) : Prop where
  object : IsObject v
  name : v.Has "name" IsName
  title : v.May "title" IsText
  mandatory : v.Has "mandatory" IsBool
  numberOfValues : v.May "numberOfValues" rules.valueCount

/-- The kinds of categories, and what each of them has besides. -/
inductive HasKind (rules : IntegerRules) (v : Json) : Prop where
  | simple (tag : v.get? "category_type" = some (.text "Simple"))
      (type : v.Has "type" (IsOneOf scalarNames)) (maxChar : v.May "max_char" rules.amount)
      (pattern : v.May "pattern" IsText)
  | list (tag : v.get? "category_type" = some (.text "List"))
      (values : v.Has "values" (IsListOf 2 IsEntry))
  | independent (tag : v.get? "category_type" = some (.text "DynamicList"))
      (subtype : v.get? "dynamic_subtype" = some (.text "Independent"))
      (referenceName : v.May "reference_name" IsText)
      (initialValues : v.Has "initial_values" (IsListOf 1 IsEntry))
  | dependent (tag : v.get? "category_type" = some (.text "DynamicList"))
      (subtype : v.get? "dynamic_subtype" = some (.text "Dependent"))
      (dependsOn : v.Has "depends_on" IsName)

/-- One category stands directly below another. -/
def IsChild (c v : Json) : Prop :=
  ∃ children, v.get? "sub_categories" = some (.list children) ∧ c ∈ children

/-- A category: its head, its kind, and below it categories again, of which
there are some where they are given. -/
inductive IsCategory (rules : IntegerRules) : Json → Prop where
  | node {v : Json} (head : HasHead rules v) (kind : HasKind rules v)
      (children : v.May "sub_categories" (IsListOf 1 fun _ => True))
      (below : ∀ c, IsChild c v → IsCategory rules c) : IsCategory rules v

/-! ## §4. Documents. -/

@[mk_iff] structure IsProtocol (rules : IntegerRules) (v : Json) : Prop where
  object : IsObject v
  project : v.Has "project" IsProject
  screening : v.May "screening" (IsScreening rules)
  quality : v.May "quality_assess" IsQuality
  categories : v.Has "category" (IsListOf 1 (IsCategory rules))
  reporting : v.May "reporting" (IsListOf 0 IsReport)

/-! ## §5. Names of categories. -/

/-- The one category is the other, or stands somewhere below it. -/
inductive Within (v : Json) : Json → Prop where
  | here : Within v v
  | down {c d : Json} (upper : Within v c) (child : IsChild d c) : Within v d

/-- A category of a document, on any level. -/
def CategoryOf (document c : Json) : Prop :=
  ∃ tops, document.get? "category" = some (.list tops) ∧ ∃ top ∈ tops, Within top c

/-- A report of a document. -/
def ReportOf (document r : Json) : Prop :=
  ∃ reports, document.get? "reporting" = some (.list reports) ∧ r ∈ reports

/-- Some category of the document has the name. -/
def NamesCategory (document : Json) (name : String) : Prop :=
  ∃ c, CategoryOf document c ∧ c.get? "name" = some (.text name)

/-- The category is a list whose values hang on another category. -/
def IsDependentList (c : Json) : Prop :=
  c.get? "category_type" = some (.text "DynamicList") ∧
    c.get? "dynamic_subtype" = some (.text "Dependent")

/-- Dependent lists depend on categories other than themselves, and reports
are on categories. -/
structure ReferencesResolve (document : Json) : Prop where
  dependencies : ∀ c target, CategoryOf document c → IsDependentList c →
    c.get? "depends_on" = some (.text target) →
    c.get? "name" ≠ some (.text target) ∧ NamesCategory document target
  values : ∀ r target, ReportOf document r → r.get? "value" = some (.text target) →
    NamesCategory document target
  references : ∀ r target, ReportOf document r →
    r.get? "report_type" = some (.text "Compared") →
    r.get? "reference" = some (.text target) → NamesCategory document target

/-! ## §6. Walking down. -/

variable {v c d : Json}

/-- What has a key is an object. -/
theorem isObject_of_get? {key : String} {w : Json} (found : v.get? key = some w) : IsObject v := by
  obtain ⟨members, rfl, -⟩ := get?_eq_some_iff.1 found
  exact ⟨members, rfl⟩

theorem depth_child_lt (h : IsChild c v) : c.depth + 2 ≤ v.depth := by
  obtain ⟨children, found, mem⟩ := h
  have outer := depth_get?_lt found
  have inner := depth_item_lt mem
  omega

theorem isListOf_congr {least : Nat} {P Q : Json → Prop}
    (h : ∀ items, v = .list items → ∀ w ∈ items, (P w ↔ Q w)) :
    IsListOf least P v ↔ IsListOf least Q v := by
  constructor
  · rintro ⟨items, rfl, count, each⟩
    exact ⟨items, rfl, count, fun w mem => (h items rfl w mem).1 (each w mem)⟩
  · rintro ⟨items, rfl, count, each⟩
    exact ⟨items, rfl, count, fun w mem => (h items rfl w mem).2 (each w mem)⟩

theorem IsChild.isProper (h : IsChild c v) (proper : v.IsProper) : c.IsProper := by
  obtain ⟨children, found, mem⟩ := h
  exact isProper_list_iff.1 (proper.get? found) c mem

theorem Within.trans (upper : Within v c) (lower : Within c d) : Within v d := by
  induction lower with
  | here => exact upper
  | down _ child ih => exact .down ih child

theorem within_iff : Within v c ↔ c = v ∨ ∃ d, IsChild d v ∧ Within d c := by
  constructor
  · intro h
    induction h with
    | here => exact .inl rfl
    | down _ child ih =>
      rcases ih with rfl | ⟨d, first, later⟩
      · exact .inr ⟨_, child, .here⟩
      · exact .inr ⟨d, first, .down later child⟩
  · rintro (rfl | ⟨d, first, later⟩)
    · exact .here
    · exact Within.trans (.down .here first) later

end LiteratureReview.Grammar
