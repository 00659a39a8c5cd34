/-
  LiteratureReview.Validation.References
  ──────────────────────────────────────
  Names that should be names of categories: what a dependent list depends
  on, and what reports are computed from.

  The document is looked at as it is; whatever has not the form it should
  have is passed over.
-/
import LiteratureReview.Json.Pointer
import LiteratureReview.Project.Responses

namespace LiteratureReview.References

open Json

/-- What is wrong with a name. -/
inductive Fault where
  | dependsOnItself (name : String)
  | unknownDependency (target : String)
  | unknownReportTarget (report target : String)
  deriving DecidableEq, Repr

/-- The wording of a fault. -/
def Fault.message : Fault → String
  | .dependsOnItself name => "category `" ++ name ++ "` cannot depend on itself"
  | .unknownDependency target => "`" ++ target ++ "` does not name a category"
  | .unknownReportTarget report target =>
    "report `" ++ report ++ "` refers to unknown category `" ++ target ++ "`"

/-- A fault and its place in the document. -/
structure Finding where
  place : Pointer
  fault : Fault
  deriving DecidableEq, Repr

/-- A finding as callers are told of it. -/
def Finding.toFieldError (f : Finding) : FieldError :=
  ⟨f.place.render, f.fault.message⟩

/-! ## §1. Looking into a document. -/

/-- The text under a key. -/
def textAt (v : Json) (key : String) : Option String :=
  (v.get? key).bind asText?

/-- The elements under a key; none if there is no list. -/
def listAt (v : Json) (key : String) : List Json :=
  ((v.get? key).bind asList?).getD []

/-! ## §2. Names of categories. -/

mutual

/-- The names in a category and below it. -/
def namesOf : Json → List String
  | .object members => ((members.lookup "name").bind asText?).toList ++ namesBelow members
  | .null | .bool _ | .number _ | .text _ | .list _ => []

/-- The names in the categories below one. -/
def namesBelow : List (String × Json) → List String
  | [] => []
  | (key, v) :: rest => if key = "sub_categories" then namesWithin v else namesBelow rest

/-- The names in a list of categories. -/
def namesWithin : Json → List String
  | .list items => namesOfAll items
  | .null | .bool _ | .number _ | .text _ | .object _ => []

/-- The names in some categories. -/
def namesOfAll : List Json → List String
  | [] => []
  | v :: rest => namesOf v ++ namesOfAll rest

end

/-! ## §3. Dependent lists. -/

/-- The category is a list that depends on another category. -/
def isDependent (category : Json) : Bool :=
  textAt category "category_type" == some "DynamicList"
    && textAt category "dynamic_subtype" == some "Dependent"

/-- What is wrong with what a category depends on. -/
def dependency (names : List String) (place : Pointer) (category : Json) : List Finding :=
  if isDependent category then
    match textAt category "depends_on" with
    | none => []
    | some target =>
      if textAt category "name" = some target then
        [⟨place ++ [.member "depends_on"], .dependsOnItself target⟩]
      else if names.contains target then []
      else [⟨place ++ [.member "depends_on"], .unknownDependency target⟩]
  else []

mutual

/-- The faults in a category and below it. -/
def inCategory (names : List String) (place : Pointer) : Json → List Finding
  | .object members =>
    dependency names place (.object members) ++ belowCategory names place members
  | .null | .bool _ | .number _ | .text _ | .list _ => []

/-- The faults in the categories below one. -/
def belowCategory (names : List String) (place : Pointer) : List (String × Json) → List Finding
  | [] => []
  | (key, v) :: rest =>
    if key = "sub_categories" then withinList names (place ++ [.member key]) v
    else belowCategory names place rest

/-- The faults in a list of categories. -/
def withinList (names : List String) (place : Pointer) : Json → List Finding
  | .list items => inCategories names place 0 items
  | .null | .bool _ | .number _ | .text _ | .object _ => []

/-- The faults in categories, counted from an index on. -/
def inCategories (names : List String) (place : Pointer) (index : Nat) :
    List Json → List Finding
  | [] => []
  | v :: rest =>
    inCategory names (place ++ [.element index]) v ++ inCategories names place (index + 1) rest

end

/-! ## §4. Reports. -/

/-- The members of a report that name categories. -/
def targetKeys (report : Json) : List String :=
  match textAt report "report_type" with
  | some "Simple" => ["value"]
  | some "Compared" => ["value", "reference"]
  | _ => []

/-- The faults in a report. -/
def inReport (names : List String) (place : Pointer) (report : Json) : List Finding :=
  (targetKeys report).flatMap fun key =>
    match textAt report key with
    | none => []
    | some target =>
      if names.contains target then []
      else [⟨place ++ [.member key],
        .unknownReportTarget ((textAt report "name").getD "") target⟩]

/-! ## §5. Documents. -/

/-- The names of all categories of a document. -/
def categoryNames (document : Json) : List String :=
  namesOfAll (listAt document "category")

/-- Every fault of a document, in its order. -/
def findings (document : Json) : List Finding :=
  let names := categoryNames document
  inCategories names [.member "category"] 0 (listAt document "category") ++
    ((listAt document "reporting").mapIdx fun i report =>
      inReport names [.member "reporting", .element i] report).flatten

end LiteratureReview.References
