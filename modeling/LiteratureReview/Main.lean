/-
  LiteratureReview.Main
  ─────────────────────
  The program: it reads its surroundings, runs the command line, and leaves
  behind what the run answers.
-/
import LiteratureReview.CommandLine.Run
import LiteratureReview.Store.File
import Std.Time.DateTime.Timestamp

open LiteratureReview

namespace LiteratureReview.Program

/-! ## §1. Reading. -/

/-- The text of a file, or why there is none. -/
def readFile (path : String) : IO (Except String String) := do
  try
    return .ok (← IO.FS.readFile path)
  catch e =>
    match e with
    | .noFileOrDirectory .. => return .error "No such file or directory (os error 2)"
    | e => return .error (toString e)

/-- The text of a file, if there is one. -/
def readIfThere (path : String) : IO (Option String) := do
  return (← readFile path).toOption

/-- The file with settings at a path, if there is one. -/
def settingsFile (path : String) : IO (Option SettingsFile) := do
  return (← readIfThere path).map fun text => ⟨path, text⟩

/-- The environment variables. -/
def environment : IO Environment.Variables := do
  let text := (← readIfThere "/proc/self/environ").getD ""
  return (text.splitOn "\x00").filterMap fun entry =>
    let (name, value) := entry.toList.span (· ≠ '=')
    if name.isEmpty then none
    else some (String.ofList name, String.ofList (value.drop 1))

/-- The path of the user's settings. -/
def userPath : IO (Option String) := do
  match ← IO.getEnv "XDG_CONFIG_HOME", ← IO.getEnv "HOME" with
  | some base, _ => return some (base ++ "/sift/config.toml")
  | none, some home => return some (home ++ "/.config/sift/config.toml")
  | none, none => return none

/-- The first file with variables among the directories from here upwards. -/
def dotenv : Nat → String → IO (Option String)
  | 0, _ => return none
  | levels + 1, directory => do
    match ← readIfThere (directory ++ ".env") with
    | some text => return some text
    | none => dotenv levels (directory ++ "../")

/-- The sources of the settings. -/
def sources : IO SettingsSources := do
  let depth := ((← IO.currentDir).toString.splitOn "/").length
  let own ← environment
  let environment := match ← dotenv depth "" with
    | some text => Dotenv.load text own
    | none => own
  let userFile ← match ← userPath with
    | some path => settingsFile path
    | none => pure none
  return { userFile, projectFile := ← settingsFile ".sift/config.toml", environment }

/-- The words and the time that rows are made with. -/
def provision : IO Provision := do
  let start := (← IO.getRandomBytes 8).toList.foldl (fun n b => 256 * n + b.toNat) 0
  let now ← Std.Time.Timestamp.now
  return {
    words := fun i => UInt64.ofNat (start + i * 0x9E3779B97F4A7C15)
    now := ⟨now.val.second.val, now.val.nano.val.toNat⟩ }

/-! ## §2. Running. -/

/-- The file and the database that a command line needs. -/
def needs (sources : SettingsSources) (words : List String) : Option String × Option String :=
  match Invocation.parse words with
  | .error _ => (none, none)
  | .ok i =>
    let file := match i.command with
      | .validate file _ | .install file .. => some file
      | .details _ | .reports _ | .schema _ => none
    (file, (Settings.load sources).toOption.bind fun s => Workspace.databasePath i s)

/-- What the program finds. -/
def workspace (words : List String) : IO Workspace := do
  let sources ← sources
  let (file, database) := needs sources words
  let text ← match file with
    | some path => readFile path
    | none => pure (.error "")
  let db ← match database with
    | some path => pure (Database.ofText ((← readIfThere path).getD ""))
    | none => pure (.ok {})
  return { sources, files := fun _ => text, databases := fun _ => db }

/-- Keep a database. -/
def save (path : String) (db : Database) : IO Unit := do
  let directory := "/".intercalate (path.splitOn "/").dropLast
  if !directory.isEmpty then IO.FS.createDirAll directory
  IO.FS.writeFile path db.toText

end LiteratureReview.Program

open LiteratureReview.Program in
/-- Run the program. -/
def main (words : List String) : IO UInt32 := do
  let (answer, left) := (← workspace words).run (← provision) words
  match left with
  | some (path, db) => save path db
  | none => pure ()
  IO.print answer.output
  match answer.complaint with
  | some complaint => IO.eprint complaint
  | none => if answer.status = 2 then IO.eprint Answer.help
  return answer.status.toUInt32
