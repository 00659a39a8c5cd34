/-
  LiteratureReview.Settings.Loading
  ─────────────────────────────────
  Loading the settings from all their sources.

  The built-in settings lie lowest, over them the user's file, the project's
  file, and the environment.  Every setting has the value of the highest
  source that sets it.  What is loaded meets all conditions on settings.
-/
import LiteratureReview.Settings.Dotenv
import LiteratureReview.Settings.Extraction
import LiteratureReview.Toml.Document

namespace LiteratureReview

/-! ## §1. Files. -/

mutual

/-- A value of a file as a tree.  A date is a table under a key that no
setting has. -/
def Tree.ofToml (s : Source) : Toml.Value → Tree
  | .bool b => .leaf s (.bool b)
  | .integer i => .leaf s (.signed i)
  | .float x => .leaf s (.float x)
  | .text t => .leaf s (.text t)
  | .date written => .table s [("date", .leaf s (.text written))]
  | .array vs => .list s (Tree.itemsOfToml s vs)
  | .table ms => .table s (Tree.membersOfToml s ms)

/-- The elements of an array as trees. -/
def Tree.itemsOfToml (s : Source) : List Toml.Value → List Tree
  | [] => []
  | v :: rest => Tree.ofToml s v :: Tree.itemsOfToml s rest

/-- The members of a table as trees. -/
def Tree.membersOfToml (s : Source) : List (String × Toml.Value) → List (String × Tree)
  | [] => []
  | (key, v) :: rest => (key, Tree.ofToml s v) :: Tree.membersOfToml s rest

end

/-- A file with settings. -/
structure SettingsFile where
  /-- The path as complaints name it. -/
  path : String
  text : String
  deriving DecidableEq, Repr

/-! ## §2. Sources. -/

/-- Why settings cannot be loaded. -/
inductive SettingsError where
  /-- A file is not a TOML document. -/
  | notToml
  /-- A value does not fit. -/
  | misfit (fault : Tree.Fault)
  /-- A value fits but cannot be used. -/
  | invalid (setting : InvalidSetting)
  deriving DecidableEq, Repr

/-- What went wrong, without saying that it was the settings. -/
def SettingsError.detail : SettingsError → String
  | .notToml => "TOML parse error"
  | .misfit f => f.message
  | .invalid e => e.message

/-- The wording of an error. -/
def SettingsError.message : SettingsError → String
  | .invalid e => e.message
  | e => "Configuration error: " ++ e.detail

/-- The settings of a file as a tree. -/
def SettingsFile.toTree (f : SettingsFile) : Except SettingsError Tree :=
  let s := Source.file f.path
  match Toml.parse f.text with
  | some members => .ok (.table s (Tree.membersOfToml s members))
  | none => .error .notToml

/-- Where settings may come from besides the built-in ones. -/
structure SettingsSources where
  userFile : Option SettingsFile := none
  projectFile : Option SettingsFile := none
  environment : Environment.Variables := []

namespace SettingsSources

/-- The trees of all sources, the lowest first. -/
def layers (s : SettingsSources) : Except SettingsError (List Tree) := do
  let user ← s.userFile.toList.mapM SettingsFile.toTree
  let project ← s.projectFile.toList.mapM SettingsFile.toTree
  return Settings.toTree {} :: user ++ project ++ [Environment.toTree s.environment]

/-- The trees of all sources, laid over each other. -/
def tree (s : SettingsSources) : Except SettingsError Tree := do
  return (← s.layers).foldl Tree.overlay (.table .builtIn [])

end SettingsSources

/-! ## §3. Loading. -/

/-- Load the settings. -/
def Settings.load (sources : SettingsSources) : Except SettingsError Settings := do
  let tree ← sources.tree
  let settings ← (Settings.ofTree tree).mapError SettingsError.misfit
  settings.validate.mapError SettingsError.invalid
  return settings

end LiteratureReview
