/-
  LiteratureReview.Settings.Extraction
  ────────────────────────────────────
  Reading the settings out of a tree.

  A section is a table of fields, or the list of its fields in order of
  declaration.  The fields of a table are looked at by ascending key, those
  of a list in their order; keys and elements beyond the fields are passed
  over.
-/
import LiteratureReview.Json.Decoding
import LiteratureReview.Settings.Basic
import LiteratureReview.Settings.Tree

namespace LiteratureReview

namespace Tree

/-- A place in a tree: the keys that lead to it, and what is there. -/
structure Place where
  path : List String
  tree : Tree

/-- A fault at a place. -/
def Place.fault {α : Type} (p : Place) (m : Misfit) : Except Fault α :=
  .error ⟨p.path, p.tree.source, m⟩

/-- The place of a field: under its key, or at its position. -/
def Place.field? (p : Place) (r : RecordType) (name : String) : Option Place :=
  match p.tree with
  | .leaf .. => none
  | .table _ members => (members.lookup name).map fun t => ⟨p.path ++ [name], t⟩
  | .list _ items =>
    let i := r.fields.idxOf name
    items[i]?.map fun t => ⟨p.path ++ [toString i], t⟩

/-- A section has to be a table or a list. -/
def Place.expectSection (p : Place) (r : RecordType) : Except Fault Unit :=
  match p.tree with
  | .leaf .. => p.fault (.wrongType p.tree.describe r.expected)
  | .list .. | .table .. => .ok ()

/-- The complaint about a field that has to be there. -/
def Place.lack {α : Type} (p : Place) (r : RecordType) (name : String) : Except Fault α :=
  match p.tree with
  | .list .. => p.fault (.wrongLength (r.fields.idxOf name) r.expectedLength)
  | .leaf .. | .table .. => p.fault (.missing name)

/-- A text. -/
def Place.text (p : Place) : Except Fault String :=
  match p.tree with
  | .leaf _ (.text s) => .ok s
  | t => p.fault (.wrongType t.describe "a string")

/-- The text in a field that may be left out. -/
def Place.textOr (p : Place) (r : RecordType) (name default : String) : Except Fault String :=
  match p.field? r name with
  | some q => q.text
  | none => .ok default

end Tree

open LiteratureReview.Tree

/-- Read the database settings. -/
def DatabaseSettings.ofPlace (p : Place) : Except Fault DatabaseSettings := do
  p.expectSection record
  return ⟨← p.textOr record "path" ({} : DatabaseSettings).path⟩

/-- Read the default field.  All that is there is read before anything is
missed, except in a list, which ends where something is missing. -/
def FieldDefault.ofPlace (p : Place) : Except Fault FieldDefault := do
  p.expectSection record
  let name ← (p.field? record "name").mapM Place.text
  let title ← (p.field? record "title").mapM Place.text
  let type ← (p.field? record "type").mapM Place.text
  match name, title, type with
  | some name, some title, some type => return ⟨name, title, type⟩
  | none, _, _ => p.lack record "name"
  | _, none, _ => p.lack record "title"
  | _, _, none => p.lack record "type"

/-- Read the default field if it is given. -/
def FieldDefault.ofField (p : Place) (r : RecordType) (name : String) :
    Except Fault FieldDefault :=
  match p.field? r name with
  | some q => FieldDefault.ofPlace q
  | none => .ok {}

/-- Read the defaults. -/
def DefaultsSettings.ofPlace (p : Place) : Except Fault DefaultsSettings := do
  p.expectSection record
  let criterion := p.textOr record "exclusion_criterion" ({} : DefaultsSettings).exclusionCriterion
  let field := FieldDefault.ofField p record "extraction_field"
  match p.tree with
  | .list .. => do
    let field ← field
    return ⟨field, ← criterion⟩
  | .leaf .. | .table .. => do
    let criterion ← criterion
    return ⟨← field, criterion⟩

/-- Read the general settings. -/
def GeneralSettings.ofPlace (p : Place) : Except Fault GeneralSettings := do
  p.expectSection record
  return ⟨← p.textOr record "output" ({} : GeneralSettings).output⟩

namespace Settings

/-- Read all settings. -/
def ofTree (t : Tree) : Except Fault Settings := do
  let p : Place := ⟨[], t⟩
  p.expectSection record
  let database ← match p.field? record "database" with
    | some q => DatabaseSettings.ofPlace q
    | none => pure {}
  let defaults ← match p.field? record "defaults" with
    | some q => DefaultsSettings.ofPlace q
    | none => pure {}
  let general ← match p.field? record "general" with
    | some q => GeneralSettings.ofPlace q
    | none => pure {}
  return ⟨database, defaults, general⟩

/-- A text among the built-in settings. -/
def builtInText (s : String) : Tree := .leaf .builtIn (.text s)

/-- Settings as a tree of built-in ones. -/
def toTree (s : Settings) : Tree :=
  .table .builtIn
    [("database", .table .builtIn [("path", builtInText s.database.path)]),
     ("defaults", .table .builtIn
       [("extraction_field", .table .builtIn
          [("name", builtInText s.defaults.extractionField.name),
           ("title", builtInText s.defaults.extractionField.title),
           ("type", builtInText s.defaults.extractionField.type)]),
        ("exclusion_criterion", builtInText s.defaults.exclusionCriterion)]),
     ("general", .table .builtIn [("output", builtInText s.general.output)])]

end Settings

end LiteratureReview
