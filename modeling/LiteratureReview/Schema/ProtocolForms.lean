/-
  LiteratureReview.Schema.ProtocolForms
  ─────────────────────────────────────
  The JSON Schemas of a review protocol and of everything in it.
-/
import LiteratureReview.Schema.Forms

namespace LiteratureReview.Forms

open Json

/-! ## §1. Project and screening. -/

def projectSection : Json :=
  described (record
    [field "short_name" (described identifier
       "Unique human-readable key; case-folded to the project label at install."),
     field "name" (described nonEmptyText "Display title."),
     option "description" text])
    "Project identity section of a protocol."

def conflictType : Json :=
  described (describedNames
    [("Decision", "Reviewers disagree on include/exclude."),
     ("Criteria", "Reviewers disagree on any criterion.")])
    "How disagreeing reviewer decisions on one paper are classified."

def conflictResolution : Json :=
  described (enumeration ["Majority", "Unanimity"]) "How a reviewer conflict is resolved."

def assignmentMode : Json :=
  described (enumeration ["Normal", "Veto", "Info"])
    "How validation papers are assigned to reviewers."

def namedEntry : Json :=
  described (record [field "name" nonEmptyText])
    ("A `\x7b \"name\": ... \x7d` entry (criteria, sources, search strategies, list values).")

def phaseSection : Json :=
  described (record
    [field "title" nonEmptyText,
     option "description" text,
     option "fields" (described (list identifier)
       "Extraction fields visible while screening in this phase.")])
    "One declared screening phase."

def screeningSection : Json :=
  described (record
    [field "review_per_paper" (between u32 1 4294967295),
     field "conflict_type" (ref "ConflictType"),
     field "conflict_resolution" (ref "ConflictResolution"),
     field "exclusion_criteria" (listOfAtLeast 1 (ref "NamedEntry")),
     option "source_papers" (list (ref "NamedEntry")),
     option "search_strategy" (list (ref "NamedEntry")),
     option "validation_percentage" (between u32 0 100),
     option "validation_assignment_mode" (ref "ValidationAssignmentMode"),
     option "phases" (list (ref "PhaseDef"))])
    "Screening rules: reviewer count, conflict policy, criteria and phases."

/-! ## §2. Quality assessment and reports. -/

def responseSection : Json :=
  described (record
    [field "title" nonEmptyText,
     field "score" (described double "May be negative or fractional.")])
    "One scored answer, shared by every QA question."

def qualitySection : Json :=
  described (record
    [field "question" (listOfAtLeast 1 nonEmptyText),
     field "response" (listOfAtLeast 1 (ref "QaResponse")),
     field "min_score" (described double "Cutoff score for a paper to pass quality assessment.")])
    "Quality-assessment questionnaire."

def chart : Json :=
  described (enumeration ["bar", "pie", "line"]) "Chart kind used to render a report."

def simpleReport : Json :=
  record
    [field "name" text,
     option "title" text,
     field "value" (described identifier "Category name this report is computed from."),
     field "chart" (listOfAtLeast 1 (ref "Chart"))]

def comparedReport : Json :=
  record
    [field "name" text,
     option "title" text,
     field "value" identifier,
     field "reference" (described identifier "Category the `value` is compared against."),
     field "chart" (listOfAtLeast 1 (ref "Chart"))]

def report : Json :=
  described (union
    [described (variant "report_type" "Simple" "SimpleReport") "Distribution of one category.",
     described (variant "report_type" "Compared" "ComparedReport")
       "One category cross-tabulated against another."])
    ("A reporting definition. Never persisted as rows: reports are read back from\n" ++
     "the stored protocol at render time.")

/-! ## §3. Categories. -/

def scalarType : Json :=
  described (enumeration ["int", "text", "string", "bool", "real", "date"])
    "Scalar kind of a `Simple` category."

/-- How many values a field takes. -/
def numberOfValues : Field := option "numberOfValues" (atLeast i64 (-1))

/-- The fields below a field. -/
def subCategories : Field := option "sub_categories" (listOfAtLeast 1 (ref "Category"))

def simpleCategory : Json :=
  described (record
    [field "name" identifier,
     option "title" text,
     field "type" (ref "ScalarType"),
     field "mandatory" bool,
     option "numberOfValues" (described (atLeast i64 (-1))
       "`-1` for unlimited repetitions, otherwise a cap."),
     option "max_char" (between u32 1 4294967295),
     option "pattern" text,
     option "initial_value" anything,
     subCategories])
    "Scalar field."

def listCategory : Json :=
  described (record
    [field "name" identifier,
     option "title" text,
     field "values" (listOfAtLeast 2 (ref "NamedEntry")),
     field "mandatory" bool,
     numberOfValues,
     subCategories])
    "Closed enumeration with at least two values."

def independentList : Json :=
  record
    [field "name" identifier,
     option "title" text,
     option "reference_name" text,
     field "initial_values" (listOfAtLeast 1 (ref "NamedEntry")),
     field "mandatory" bool,
     numberOfValues,
     subCategories]

def dependentList : Json :=
  record
    [field "name" identifier,
     option "title" text,
     field "depends_on" (described identifier
       "Name of the category whose chosen value drives this list."),
     field "mandatory" bool,
     numberOfValues,
     subCategories]

def dynamicList : Json :=
  described (union
    [variant "dynamic_subtype" "Independent" "IndependentList",
     variant "dynamic_subtype" "Dependent" "DependentList"])
    "Open enumeration, either seeded with values or driven by another field."

def category : Json :=
  described (union
    [described (variant "category_type" "Simple" "SimpleCategory") "Leaf scalar field.",
     described (variant "category_type" "List" "ListCategory") "Closed enumeration.",
     described (variant "category_type" "DynamicList" "DynamicList")
       "Open, user-extensible enumeration."])
    "A data-extraction field definition."

/-! ## §4. The protocol. -/

def protocol : Json :=
  described (record
    [field "project" (ref "ProjectDef"),
     option "screening" (ref "ScreeningConfig"),
     option "quality_assess" (ref "QaConfig"),
     field "category" (listOfAtLeast 1 (ref "Category")),
     option "reporting" (list (ref "Report"))])
    "Root of a protocol document. Immutable once validated."

/-- Everything a protocol refers to. -/
def protocolParts : List (String × Json) :=
  [("Category", category),
   ("Chart", chart),
   ("ComparedReport", comparedReport),
   ("ConflictResolution", conflictResolution),
   ("ConflictType", conflictType),
   ("DependentList", dependentList),
   ("DynamicList", dynamicList),
   ("IndependentList", independentList),
   ("ListCategory", listCategory),
   ("NamedEntry", namedEntry),
   ("PhaseDef", phaseSection),
   ("ProjectDef", projectSection),
   ("QaConfig", qualitySection),
   ("QaResponse", responseSection),
   ("Report", report),
   ("ScalarType", scalarType),
   ("ScreeningConfig", screeningSection),
   ("SimpleCategory", simpleCategory),
   ("SimpleReport", simpleReport),
   ("ValidationAssignmentMode", assignmentMode)]

/-- The schema of a review protocol. -/
def reviewProtocol : Json := document "ReviewProtocol" protocol protocolParts

end LiteratureReview.Forms
