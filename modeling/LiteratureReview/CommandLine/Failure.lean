/-
  LiteratureReview.CommandLine.Failure
  ────────────────────────────────────
  Why a command failed, and how it is said.

  What is said names the undertaking first and then, between colons, each
  cause behind it.
-/
import LiteratureReview.CommandLine.Format
import LiteratureReview.Installation.Install
import LiteratureReview.Json.Reader
import LiteratureReview.Settings.Loading

namespace LiteratureReview

/-- A failure of the store and the causes behind it. -/
def DatabaseError.causes : DatabaseError → List String
  | .engine cause => [(DatabaseError.engine cause).message, cause.message]
  | e => [e.message]

/-- A failure to load the settings and the causes behind it. -/
def SettingsError.causes : SettingsError → List String
  | .invalid e => [e.message]
  | e => [e.message, e.detail]

namespace CommandLine

/-- Why a command failed. -/
inductive Failure where
  | settings (cause : SettingsError)
  | format (name : String)
  | unopened (path : String) (cause : DatabaseError)
  | unreadable (path reason : String)
  | notJson (path : String) (cause : TextError)
  | invalid (errors : ValidationErrors)
  | noUser
  | taken (label : String)
  | notInstalled (cause : DatabaseError)
  | unknownProject (label : String)
  | unknownSchema (name : String)
  | store (cause : DatabaseError)

namespace Failure

/-- The failure of an installation. -/
def ofInstall : InstallError → Failure
  | .validation errors => .invalid errors
  | .conflict label => .taken label
  | .internal cause => .notInstalled cause

/-- What went wrong and the causes behind it, one after the other. -/
def causes : Failure → List String
  | .settings cause => "failed to load sift configuration" :: cause.causes
  | .format name => [OutputFormat.unsupported name]
  | .unopened path cause =>
    "failed to initialize sift application context"
      :: ("failed to open database at " ++ path) :: cause.causes
  | .unreadable path reason => ["failed to read " ++ path, reason]
  | .notJson path cause => [path ++ " is not valid JSON", cause.message]
  | .invalid errors => [errors.message]
  | .noUser => ["--user must not be empty"]
  | .taken label => [(InstallError.conflict label).message]
  | .notInstalled cause => (InstallError.internal cause).message :: cause.causes
  | .unknownProject label => ["no project labelled `" ++ label ++ "`"]
  | .unknownSchema name =>
    ["unknown schema `" ++ name ++ "` (available: " ++ commaList Registry.names ++ ")"]
  | .store cause => cause.causes

/-- The wording of a failure. -/
def message (f : Failure) : String := ": ".intercalate f.causes

end Failure

end CommandLine

end LiteratureReview
