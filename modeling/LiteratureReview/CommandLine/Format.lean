/-
  LiteratureReview.CommandLine.Format
  ───────────────────────────────────
  The forms in which answers are printed: JSON over several lines, or on
  one.
-/
import LiteratureReview.Json.Printer

namespace LiteratureReview

/-- A form of printing. -/
inductive OutputFormat where
  | json
  | raw
  deriving DecidableEq, Repr

namespace OutputFormat

/-- The formats by name. -/
def table : List (String × OutputFormat) := [("json", .json), ("raw", .raw)]

/-- The name of a format. -/
def name : OutputFormat → String
  | .json => "json"
  | .raw => "raw"

/-- The format named by a setting, in whatever case. -/
def ofSetting (value : String) : Option OutputFormat :=
  table.lookup value.toLower

/-- The complaint about a setting that names no format. -/
def unsupported (value : String) : String :=
  "unsupported output format `" ++ value ++ "` in general.output"

/-- Print a value. -/
def render : OutputFormat → Json → String
  | .json, v => v.printIndented
  | .raw, v => v.print

end OutputFormat

end LiteratureReview
