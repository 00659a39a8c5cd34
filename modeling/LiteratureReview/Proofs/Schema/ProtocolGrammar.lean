/-
  LiteratureReview.Proofs.Schema.ProtocolGrammar
  ──────────────────────────────────────────────
  The schema of protocols, form by form.

  The published schema is put together from the types of a protocol and
  then rewritten twice.  `grammar_eq` says what comes out: one definition
  for each type, each of them a record, a tagged union or a choice.  The
  two are compared by `Schema.same`, which the kernel runs once.
-/
import LiteratureReview.Proofs.Schema.Forms
import LiteratureReview.Validation.Validator

namespace LiteratureReview

deriving instance DecidableEq for LetterClass
deriving instance DecidableEq for Piece
deriving instance DecidableEq for Pattern

namespace Schema

open Json

/-! ## §1. Equality of schemas. -/

mutual

/-- The schemas are the same. -/
def same : Schema → Schema → Bool
  | .always, .always => true
  | .never, .never => true
  | .ref a, .ref b => a = b
  | .all xs, .all ys => sameList xs ys
  | .any xs, .any ys => sameList xs ys
  | .one xs, .one ys => sameList xs ys
  | .negate x, .negate y => same x y
  | .conditional t c a, .conditional t' c' a' => same t t' && same c c' && same a a'
  | .type xs, .type ys => xs = ys
  | .constant x, .constant y => x = y
  | .enumeration xs, .enumeration ys => xs = ys
  | .limit x, .limit y => x = y
  | .extent x, .extent y => x = y
  | .pattern x, .pattern y => x = y
  | .required xs, .required ys => xs = ys
  | .properties xs, .properties ys => sameTable xs ys
  | .elements x, .elements y => same x y
  | _, _ => false

/-- The lists of schemas are the same. -/
def sameList : List Schema → List Schema → Bool
  | [], [] => true
  | x :: xs, y :: ys => same x y && sameList xs ys
  | _, _ => false

/-- The tables of schemas are the same. -/
def sameTable : List (String × Schema) → List (String × Schema) → Bool
  | [], [] => true
  | (k, x) :: xs, (l, y) :: ys => k = l && same x y && sameTable xs ys
  | _, _ => false

end

mutual

theorem eq_of_same : (a b : Schema) → same a b = true → a = b
  | .always, b, h => by cases b <;> first | rfl | simp [same] at h
  | .never, b, h => by cases b <;> first | rfl | simp [same] at h
  | .ref _, b, h => by cases b <;> simp_all [same]
  | .all xs, b, h => by
    cases b <;> simp only [same, Bool.false_eq_true] at h
    rw [eq_of_sameList xs _ h]
  | .any xs, b, h => by
    cases b <;> simp only [same, Bool.false_eq_true] at h
    rw [eq_of_sameList xs _ h]
  | .one xs, b, h => by
    cases b <;> simp only [same, Bool.false_eq_true] at h
    rw [eq_of_sameList xs _ h]
  | .negate x, b, h => by
    cases b <;> simp only [same, Bool.false_eq_true] at h
    rw [eq_of_same x _ h]
  | .conditional t c a, b, h => by
    cases b <;> simp only [same, Bool.false_eq_true, Bool.and_eq_true] at h
    rw [eq_of_same t _ h.1.1, eq_of_same c _ h.1.2, eq_of_same a _ h.2]
  | .type _, b, h => by cases b <;> simp_all [same]
  | .constant _, b, h => by cases b <;> simp_all [same]
  | .enumeration _, b, h => by cases b <;> simp_all [same]
  | .limit _, b, h => by cases b <;> simp_all [same]
  | .extent _, b, h => by cases b <;> simp_all [same]
  | .pattern _, b, h => by cases b <;> simp_all [same]
  | .required _, b, h => by cases b <;> simp_all [same]
  | .properties xs, b, h => by
    cases b <;> simp only [same, Bool.false_eq_true] at h
    rw [eq_of_sameTable xs _ h]
  | .elements x, b, h => by
    cases b <;> simp only [same, Bool.false_eq_true] at h
    rw [eq_of_same x _ h]

theorem eq_of_sameList : (xs ys : List Schema) → sameList xs ys = true → xs = ys
  | [], [], _ => rfl
  | [], _ :: _, h => by simp [sameList] at h
  | _ :: _, [], h => by simp [sameList] at h
  | x :: xs, y :: ys, h => by
    rw [sameList, Bool.and_eq_true] at h
    rw [eq_of_same x y h.1, eq_of_sameList xs ys h.2]

theorem eq_of_sameTable :
    (xs ys : List (String × Schema)) → sameTable xs ys = true → xs = ys
  | [], [], _ => rfl
  | [], _ :: _, h => by simp [sameTable] at h
  | _ :: _, [], h => by simp [sameTable] at h
  | (k, x) :: xs, (l, y) :: ys, h => by
    rw [sameTable, Bool.and_eq_true, Bool.and_eq_true, decide_eq_true_eq] at h
    rw [h.1.1, eq_of_same x y h.1.2, eq_of_sameTable xs ys h.2]

end

end Schema

theorem SchemaDocument.eq_of_same (a b : SchemaDocument)
    (h : (a.root.same b.root && Schema.sameTable a.definitions b.definitions) = true) :
    a = b := by
  rw [Bool.and_eq_true] at h
  have root_eq := Schema.eq_of_same _ _ h.1
  have definitions_eq := Schema.eq_of_sameTable _ _ h.2
  cases a
  cases b
  simp_all

/-! ## §2. The definitions. -/

namespace ProtocolGrammar

open Schema

/-- The conflict types, one by one. -/
def conflictType : Schema :=
  .all [.one [.all [.constant (.text "Decision"), .type [.string]],
    .all [.constant (.text "Criteria"), .type [.string]]]]

/-- Categories below a category. -/
def children : Schema := listOrNull 1 (reference "Category")

def entry : Schema := record [("name", nonEmpty)] ["name"]

def phase : Schema :=
  record
    [("description", textOrNull), ("fields", anyListOrNull identifier), ("title", nonEmpty)]
    ["title"]

def project : Schema :=
  record [("description", textOrNull), ("name", nonEmpty), ("short_name", identifier)]
    ["short_name", "name"]

def screening : Schema :=
  record
    [("conflict_resolution", reference "ConflictResolution"),
     ("conflict_type", reference "ConflictType"),
     ("exclusion_criteria", listOf 1 (reference "NamedEntry")),
     ("phases", anyListOrNull (reference "PhaseDef")), ("review_per_paper", whole 1 4294967295),
     ("search_strategy", anyListOrNull (reference "NamedEntry")),
     ("source_papers", anyListOrNull (reference "NamedEntry")),
     ("validation_assignment_mode", referenceOrNull "ValidationAssignmentMode"),
     ("validation_percentage", wholeOrNull 0 100)]
    ["review_per_paper", "conflict_type", "conflict_resolution", "exclusion_criteria"]

def response : Schema := record [("score", numeric), ("title", nonEmpty)] ["title", "score"]

def quality : Schema :=
  record
    [("min_score", numeric), ("question", listOf 1 nonEmpty),
     ("response", listOf 1 (reference "QaResponse"))]
    ["question", "response", "min_score"]

def simpleReport : Schema :=
  record
    [("chart", listOf 1 (reference "Chart")), ("name", textual), ("title", textOrNull),
     ("value", identifier)]
    ["name", "value", "chart"]

def comparedReport : Schema :=
  record
    [("chart", listOf 1 (reference "Chart")), ("name", textual), ("reference", identifier),
     ("title", textOrNull), ("value", identifier)]
    ["name", "value", "reference", "chart"]

def report : Schema :=
  taggedUnion "report_type" [("Simple", "SimpleReport"), ("Compared", "ComparedReport")]

def simpleCategory : Schema :=
  record
    [("initial_value", .always), ("mandatory", boolean), ("max_char", wholeOrNull 1 4294967295),
     ("name", identifier), ("numberOfValues", wholeFromOrNull (-1)), ("pattern", textOrNull),
     ("sub_categories", children), ("title", textOrNull), ("type", reference "ScalarType")]
    ["name", "type", "mandatory"]

def listCategory : Schema :=
  record
    [("mandatory", boolean), ("name", identifier), ("numberOfValues", wholeFromOrNull (-1)),
     ("sub_categories", children), ("title", textOrNull),
     ("values", listOf 2 (reference "NamedEntry"))]
    ["name", "values", "mandatory"]

def independentList : Schema :=
  record
    [("initial_values", listOf 1 (reference "NamedEntry")), ("mandatory", boolean),
     ("name", identifier), ("numberOfValues", wholeFromOrNull (-1)), ("reference_name", textOrNull),
     ("sub_categories", children), ("title", textOrNull)]
    ["name", "initial_values", "mandatory"]

def dependentList : Schema :=
  record
    [("depends_on", identifier), ("mandatory", boolean), ("name", identifier),
     ("numberOfValues", wholeFromOrNull (-1)), ("sub_categories", children), ("title", textOrNull)]
    ["name", "depends_on", "mandatory"]

def dynamicList : Schema :=
  taggedUnion "dynamic_subtype"
    [("Independent", "IndependentList"), ("Dependent", "DependentList")]

def category : Schema :=
  taggedUnion "category_type"
    [("Simple", "SimpleCategory"), ("List", "ListCategory"), ("DynamicList", "DynamicList")]

/-- The document itself. -/
def root : Schema :=
  record
    [("category", listOf 1 (reference "Category")), ("project", reference "ProjectDef"),
     ("quality_assess", referenceOrNull "QaConfig"),
     ("reporting", anyListOrNull (reference "Report")),
     ("screening", referenceOrNull "ScreeningConfig")]
    ["project", "category"]

/-- The schema of protocols, by its definitions. -/
def document : SchemaDocument where
  root := root
  definitions :=
    [("Category", category), ("Chart", oneOfTexts ["bar", "pie", "line"]),
     ("ComparedReport", comparedReport),
     ("ConflictResolution", oneOfTexts ["Majority", "Unanimity"]),
     ("ConflictType", conflictType), ("DependentList", dependentList),
     ("DynamicList", dynamicList), ("IndependentList", independentList),
     ("ListCategory", listCategory), ("NamedEntry", entry), ("PhaseDef", phase),
     ("ProjectDef", project), ("QaConfig", quality), ("QaResponse", response),
     ("Report", report),
     ("ScalarType", oneOfTexts ["int", "text", "string", "bool", "real", "date"]),
     ("ScreeningConfig", screening), ("SimpleCategory", simpleCategory),
     ("SimpleReport", simpleReport),
     ("ValidationAssignmentMode", oneOfTexts ["Normal", "Veto", "Info"])]

/-- **The published schema is the one given here.** -/
theorem grammar_eq : Validator.grammar = document :=
  SchemaDocument.eq_of_same _ _ (by decide +kernel)

end ProtocolGrammar

end LiteratureReview
