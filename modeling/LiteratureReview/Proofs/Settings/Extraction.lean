/-
  LiteratureReview.Proofs.Settings.Extraction
  ───────────────────────────────────────────
  What settings are read as, out of a tree of tables.

  Reading follows the keys of each setting and takes the text that it finds
  there: `Holds` says so of one path, and is proved of each section from
  those within it (`holds_of_ofTree`).  Nothing is said of sections that are
  lists.
-/
import LiteratureReview.Proofs.Json.Records
import LiteratureReview.Proofs.Settings.Conditions
import LiteratureReview.Proofs.Settings.Layers
import LiteratureReview.Settings.Extraction

namespace LiteratureReview

open LiteratureReview.Tree

/-! ## §1. Places in tables. -/

namespace Tree

variable {p : Place} {r : RecordType} {t : Tree} {name key text default : String}
  {path : List String}

/-- Whatever stands at the end of the path is the text. -/
def Holds (t : Tree) (path : List String) (text : String) : Prop :=
  ∀ u, t.at? path = some u → u.text? = some text

theorem holds_cons_iff :
    t.Holds (key :: path) text ↔ ∀ u, t.get? key = some u → u.Holds path text := by
  constructor
  · intro holds u found w there
    exact holds w (by rw [at?, found]; exact there)
  · intro each w there
    obtain ⟨u, found, there⟩ := Option.bind_eq_some_iff.1 there
    exact each u found w there

theorem Place.text_eq_ok_iff : p.text = .ok text ↔ p.tree.text? = some text := by
  rw [Place.text]
  split
  next s shape => rw [shape, text?, Except.ok.injEq, Option.some.injEq]
  next other =>
    rw [text?]
    · simp [Place.fault]
    · exact other

theorem Place.field?_of_isTable (table : p.tree.isTable = true) :
    p.field? r name = (p.tree.get? name).map fun t => ⟨p.path ++ [name], t⟩ := by
  obtain ⟨path, tree⟩ := p
  cases tree with
  | table _ _ => rfl
  | leaf _ _ => cases table
  | list _ _ => cases table

/-- What is read where a field is, is read from what stands under its key. -/
theorem Place.read_of_field? {α : Type} {f : Place → Except Fault α} {otherwise a : α} {u : Tree}
    (table : p.tree.isTable = true) (found : p.tree.get? name = some u)
    (read : (p.field? r name).elim (.ok otherwise) f = .ok a) :
    f ⟨p.path ++ [name], u⟩ = .ok a := by
  rw [field?_of_isTable table, found] at read
  exact read

theorem Place.lack_ne_ok {α : Type} {a : α} : (p.lack r name : Except Fault α) ≠ .ok a := by
  rw [lack]
  split <;> exact nofun

/-- A field that may be left out is read as what stands under its key. -/
theorem Place.holds_of_textOr (table : p.tree.isTable = true)
    (read : p.textOr r name default = .ok text) : p.tree.Holds [name] text := by
  refine holds_cons_iff.2 fun u found w there => ?_
  cases there
  rw [textOr, field?_of_isTable table, found] at read
  exact text_eq_ok_iff.1 read

/-- A field that has to be there is read as what stands under its key. -/
theorem Place.holds_of_mapM (table : p.tree.isTable = true)
    (read : (p.field? r name).mapM Place.text = .ok (some text)) : p.tree.Holds [name] text := by
  refine holds_cons_iff.2 fun u found w there => ?_
  cases there
  rw [field?_of_isTable table, found] at read
  obtain ⟨s, given, same⟩ := exists_of_bind_eq_ok read
  cases same
  exact text_eq_ok_iff.1 given

end Tree

/-! ## §2. Sections. -/

variable {p : Place} {t : Tree} {r : RecordType} {name : String}

theorem DatabaseSettings.holds_of_ofPlace {d : DatabaseSettings} (table : p.tree.isTable = true)
    (read : ofPlace p = .ok d) : p.tree.Holds ["path"] d.path := by
  obtain ⟨_, -, read⟩ := exists_of_bind_eq_ok read
  obtain ⟨path, given, same⟩ := exists_of_bind_eq_ok read
  cases same
  exact Place.holds_of_textOr table given

theorem GeneralSettings.holds_of_ofPlace {g : GeneralSettings} (table : p.tree.isTable = true)
    (read : ofPlace p = .ok g) : p.tree.Holds ["output"] g.output := by
  obtain ⟨_, -, read⟩ := exists_of_bind_eq_ok read
  obtain ⟨output, given, same⟩ := exists_of_bind_eq_ok read
  cases same
  exact Place.holds_of_textOr table given

theorem FieldDefault.holds_of_ofPlace {d : FieldDefault} (table : p.tree.isTable = true)
    (read : ofPlace p = .ok d) :
    p.tree.Holds ["name"] d.name ∧ p.tree.Holds ["title"] d.title ∧
      p.tree.Holds ["type"] d.type := by
  obtain ⟨_, -, read⟩ := exists_of_bind_eq_ok read
  obtain ⟨name, named, read⟩ := exists_of_bind_eq_ok read
  obtain ⟨title, titled, read⟩ := exists_of_bind_eq_ok read
  obtain ⟨type, typed, read⟩ := exists_of_bind_eq_ok read
  -- where one of the three is missing, nothing is read at all
  split at read
  next =>
    cases read
    exact ⟨Place.holds_of_mapM table named, Place.holds_of_mapM table titled,
      Place.holds_of_mapM table typed⟩
  all_goals exact absurd read Place.lack_ne_ok

theorem DefaultsSettings.holds_of_ofPlace {d : DefaultsSettings} (table : p.tree.isTable = true)
    (inner : ∀ u, p.tree.get? "extraction_field" = some u → u.isTable = true)
    (read : ofPlace p = .ok d) :
    p.tree.Holds ["exclusion_criterion"] d.exclusionCriterion ∧
      p.tree.Holds ["extraction_field", "name"] d.extractionField.name ∧
      p.tree.Holds ["extraction_field", "title"] d.extractionField.title ∧
      p.tree.Holds ["extraction_field", "type"] d.extractionField.type := by
  obtain ⟨path, tree⟩ := p
  cases tree with
  | leaf _ _ => cases table
  | list _ _ => cases table
  | table source members =>
    obtain ⟨_, -, read⟩ := exists_of_bind_eq_ok read
    obtain ⟨criterion, given, read⟩ := exists_of_bind_eq_ok read
    obtain ⟨field, below, same⟩ := exists_of_bind_eq_ok read
    cases same
    have fields (u : Tree) (found : (Tree.table source members).get? "extraction_field" = some u) :
        u.Holds ["name"] field.name ∧ u.Holds ["title"] field.title ∧
          u.Holds ["type"] field.type := by
      rw [FieldDefault.ofField, Place.field?_of_isTable table, found] at below
      exact FieldDefault.holds_of_ofPlace (inner u found) below
    exact ⟨Place.holds_of_textOr table given,
      holds_cons_iff.2 fun u found => (fields u found).1,
      holds_cons_iff.2 fun u found => (fields u found).2.1,
      holds_cons_iff.2 fun u found => (fields u found).2.2⟩

/-! ## §3. All settings. -/

namespace Settings

theorem ofTree_eq (t : Tree) :
    ofTree t = (do
      Place.expectSection ⟨[], t⟩ record
      let database ← (Place.field? ⟨[], t⟩ record "database").elim (.ok {}) DatabaseSettings.ofPlace
      let defaults ← (Place.field? ⟨[], t⟩ record "defaults").elim (.ok {}) DefaultsSettings.ofPlace
      let general ← (Place.field? ⟨[], t⟩ record "general").elim (.ok {}) GeneralSettings.ofPlace
      return ⟨database, defaults, general⟩) := by
  rw [ofTree]
  cases Place.field? ⟨[], t⟩ record "database" <;> cases Place.field? ⟨[], t⟩ record "defaults" <;>
    cases Place.field? ⟨[], t⟩ record "general" <;> rfl

/-- **Each setting is read as what stands at the end of its keys**, if these lead through
tables. -/
theorem holds_of_ofTree {s : Settings} (opens : ∀ k : Setting, t.Opens k.keys)
    (read : ofTree t = .ok s) (k : Setting) : t.Holds k.keys (s.value k) := by
  have table : t.isTable = true := (opens .databasePath).1
  rw [ofTree_eq] at read
  obtain ⟨_, -, read⟩ := exists_of_bind_eq_ok read
  obtain ⟨database, first, read⟩ := exists_of_bind_eq_ok read
  obtain ⟨defaults, second, read⟩ := exists_of_bind_eq_ok read
  obtain ⟨general, third, same⟩ := exists_of_bind_eq_ok read
  cases same
  have inDefaults (u : Tree) (found : t.get? "defaults" = some u) :
      u.Holds ["exclusion_criterion"] defaults.exclusionCriterion ∧
        u.Holds ["extraction_field", "name"] defaults.extractionField.name ∧
        u.Holds ["extraction_field", "title"] defaults.extractionField.title ∧
        u.Holds ["extraction_field", "type"] defaults.extractionField.type := by
    obtain ⟨here, inner⟩ := (opens .fieldName).2 u found
    exact DefaultsSettings.holds_of_ofPlace here (fun w there => (inner w there).1)
      (Place.read_of_field? table found second)
  cases k with
  | databasePath =>
    exact holds_cons_iff.2 fun u found => DatabaseSettings.holds_of_ofPlace
      ((opens .databasePath).2 u found).1 (Place.read_of_field? table found first)
  | exclusionCriterion => exact holds_cons_iff.2 fun u found => (inDefaults u found).1
  | fieldName => exact holds_cons_iff.2 fun u found => (inDefaults u found).2.1
  | fieldTitle => exact holds_cons_iff.2 fun u found => (inDefaults u found).2.2.1
  | fieldType => exact holds_cons_iff.2 fun u found => (inDefaults u found).2.2.2
  | output =>
    exact holds_cons_iff.2 fun u found => GeneralSettings.holds_of_ofPlace
      ((opens .output).2 u found).1 (Place.read_of_field? table found third)

/-- The tree of settings holds each of them. -/
theorem at?_toTree (s : Settings) (k : Setting) :
    s.toTree.at? k.keys = some (builtInText (s.value k)) := by
  cases k <;> rfl

end Settings

end LiteratureReview
