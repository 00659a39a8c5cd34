/-
  LiteratureReview.CommandLine.Run
  ────────────────────────────────
  Carrying commands out.

  A command finds settings, files and a database, and answers with something
  to print or a failure.  `Workspace.run` does all that the program does
  between reading its surroundings and printing.
-/
import LiteratureReview.CommandLine.Failure
import LiteratureReview.CommandLine.Invocation
import LiteratureReview.Extraction.Flatten
import LiteratureReview.Settings.Gaps
import LiteratureReview.Store.Detail

namespace LiteratureReview

open Json CommandLine

/-! ## §1. Protocol files. -/

/-- How files are read: the text of a path, or why there is none. -/
abbrev FileReader := String → Except String String

/-- The document in a file, with its gaps filled if defaults are given. -/
def readDocument (files : FileReader) (path : String) (defaults : Option DefaultsSettings) :
    Except Failure Json := do
  let text ← (files path).mapError (Failure.unreadable path)
  let document ← (Json.parse text).mapError (Failure.notJson path)
  return match defaults with
    | some d => d.fill document
    | none => document

/-! ## §2. Commands. -/

/-- What is said about a valid protocol. -/
structure ProtocolReport where
  label : String
  extractionFields : Nat
  reports : Nat
  deriving DecidableEq, Repr

namespace ProtocolReport

/-- The report on a protocol. -/
def ofProtocol (p : ReviewProtocol) : ProtocolReport where
  label := p.label
  extractionFields := (flatten p.categories).length
  reports := p.reports.length

/-- Write a report. -/
def encode (r : ProtocolReport) : Json :=
  .object (member "valid" (.bool true) ++ member "label" (.text r.label)
    ++ member "extraction_fields" (nat r.extractionFields) ++ member "reports" (nat r.reports))

end ProtocolReport

/-- The defaults, if gaps are to be filled. -/
def Settings.defaultsIf (s : Settings) (wanted : Bool) : Option DefaultsSettings :=
  if wanted then some s.defaults else none

/-- Validate the protocol in a file. -/
def validateFile (s : Settings) (files : FileReader) (path : String) (withDefaults : Bool) :
    Except Failure ProtocolReport := do
  let document ← readDocument files path (s.defaultsIf withDefaults)
  let protocol ← (Validator.validate document).mapError Failure.invalid
  return .ofProtocol protocol

/-- Validate the protocol in a file and install it. -/
def installFile (s : Settings) (files : FileReader) (db : Database) (by_ : Provision)
    (path user : String) (withDefaults : Bool) : Database × Except Failure InstallResult :=
  if Text.isBlankText user then (db, .error .noUser)
  else match readDocument files path (s.defaultsIf withDefaults) with
    | .error e => (db, .error e)
    | .ok document =>
      let (after, answer) := db.installDocument by_ document (Text.trim user)
      (after, answer.mapError Failure.ofInstall)

/-- The project of a label. -/
def projectLabelled (db : Database) (label : String) : Except Failure Project := do
  match ← (db.findProject label).mapError Failure.store with
  | some p => return p
  | none => .error (.unknownProject label)

/-- All about the project of a label. -/
def projectDetail (db : Database) (label : String) : Except Failure ProjectDetail := do
  (db.detailOf (← projectLabelled db label).id).mapError Failure.store

/-- The reports of the project of a label. -/
def projectReports (db : Database) (label : String) : Except Failure (List Report) := do
  (db.reportsOf (← projectLabelled db label).id).mapError Failure.store

/-- The names of the schemas, or the schema of a name. -/
def schemaAnswer : Option String → Except Failure Json
  | none => .ok (texts Registry.names)
  | some name =>
    match Registry.schema? name with
    | some s => .ok s
    | none => .error (.unknownSchema name)

/-! ## §3. Answers. -/

/-- What the program leaves behind when it ends. -/
structure Answer where
  status : UInt8 := 0
  output : String := ""
  /-- What is said besides the output. -/
  complaint : Option String := none
  deriving DecidableEq, Repr

namespace Answer

/-- A printed value. -/
def printed (format : OutputFormat) (v : Json) : Answer :=
  { output := format.render v ++ "\n" }

/-- A failure; the errors of a document are printed, too. -/
def failed (format : OutputFormat) (f : Failure) : Answer where
  status := 1
  output := match f with
    | .invalid errors => format.render errors.encode ++ "\n"
    | _ => ""
  complaint := some ("sift error: " ++ f.message ++ "\n")

/-- A value or a failure. -/
def of {α : Type} (format : OutputFormat) (write : α → Json) : Except Failure α → Answer
  | .ok a => printed format (write a)
  | .error f => failed format f

/-- The name and the version of the program. -/
def version : String := "sift 0.1.0\n"

/-- What is printed for those who ask for help. -/
def help : String :=
  "Usage: sift [OPTIONS] COMMAND\n\n"
    ++ "Commands: " ++ commaList topGrammar.commands ++ "\n"
    ++ "Options: " ++ commaList (topGrammar.options.map fun p => "--" ++ p.name) ++ "\n"

/-- There is no command to carry out. -/
def halted : Halt → Answer
  | .help => { output := help }
  | .version => { output := version }
  | _ => { status := 2 }

end Answer

/-! ## §4. Running. -/

/-- What the program finds when it is started. -/
structure Workspace where
  sources : SettingsSources := {}
  files : FileReader
  databases : String → Except DatabaseError Database

namespace Workspace

/-- The path of a database that is gone when the program ends. -/
def isPassing (path : String) : Bool := path = ":memory:" || path.isEmpty

/-- Open a database. -/
def openDatabase (w : Workspace) (path : String) : Except Failure Database :=
  if isPassing path then .ok {} else (w.databases path).mapError (Failure.unopened path)

/-- Carry out a command on a database. -/
def runOn (w : Workspace) (s : Settings) (format : OutputFormat) (by_ : Provision)
    (db : Database) : Command → Database × Answer
  | .validate file defaults =>
    (db, .of format ProtocolReport.encode (validateFile s w.files file defaults))
  | .schema name => (db, .of format id (schemaAnswer name))
  | .install file user defaults =>
    let (after, answer) := installFile s w.files db by_ file user defaults
    (after, .of format InstallResult.encode answer)
  | .details label => (db, .of format ProjectDetail.encode (projectDetail db label))
  | .reports label => (db, .of format (listOf Report.encode) (projectReports db label))

/-- Whether a command works on a database. -/
def needsDatabase : Command → Bool
  | .validate .. | .schema .. => false
  | .install .. | .details .. | .reports .. => true

/-- The path of the database that a command works on, if it does. -/
def databasePath (i : Invocation) (s : Settings) : Option String :=
  if needsDatabase i.command then some (i.database.getD s.database.path) else none

/-- Carry out an invocation: the answer, and the database that is left at a
path if there is one. -/
def invoke (w : Workspace) (by_ : Provision) (i : Invocation) :
    Answer × Option (String × Database) :=
  match Settings.load w.sources with
  | .error e => (.failed .json (.settings e), none)
  | .ok s =>
    match OutputFormat.ofSetting s.general.output with
    | none => (.failed .json (.format s.general.output), none)
    | some preset =>
      let format := i.format.getD preset
      match databasePath i s with
      | none => ((w.runOn s format by_ {} i.command).2, none)
      | some path =>
        match w.openDatabase path with
        | .error f => (.failed format f, none)
        | .ok db =>
          let (after, answer) := w.runOn s format by_ db i.command
          (answer, if isPassing path then none else some (path, after))

/-- Run the program on the words of a command line. -/
def run (w : Workspace) (by_ : Provision) (words : List String) :
    Answer × Option (String × Database) :=
  match Invocation.parse words with
  | .error h => (.halted h, none)
  | .ok i => w.invoke by_ i

end Workspace

end LiteratureReview
