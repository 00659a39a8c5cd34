/-
  LiteratureReview.Proofs.CommandLine.DryRun
  ──────────────────────────────────────────
  Validating a file tells how its installation ends.

  Both commands read the same document from the file, and what they read can
  be stored (`isOrdered_of_readDocument`).  What the one counts in the typed
  protocol, the summary of the stored project counts in tables
  (`Stores.counts_summaryOf`).  So a report on a valid protocol is a promise
  about its installation, and a refusal is the refusal of both
  (`install_agrees_with_validate`).
-/
import LiteratureReview.CommandLine.Run
import LiteratureReview.Proofs.Installation.Published
import LiteratureReview.Proofs.Settings.Gaps

namespace LiteratureReview

open Database CommandLine

/-! ## §1. Documents from files. -/

section Files

variable {s : Settings} {files : FileReader} {path user : String} {withDefaults : Bool}
variable {document : Json} {db : Database} {by_ : Provision}

/-- **A document from a file, its gaps filled or not, has its keys in order and less than 128
levels.** -/
theorem isOrdered_of_readDocument {defaults : Option DefaultsSettings}
    (read : readDocument files path defaults = .ok document) :
    document.IsOrdered ∧ document.depth < Scan.levelLimit := by
  unfold readDocument at read
  cases found : files path with
  | error reason =>
    rw [found] at read
    cases read
  | ok text =>
    cases parsed : Json.parse text with
    | error fault =>
      simp only [found, Except.mapError, bind, Except.bind, parsed] at read
      cases read
    | ok v =>
      obtain ⟨ordered, shallow⟩ := Json.isOrdered_of_parse parsed
      simp only [found, Except.mapError, bind, Except.bind, parsed, pure, Except.pure] at read
      cases defaults with
      | none =>
        cases read
        exact ⟨ordered, shallow⟩
      | some d =>
        cases read
        have filled := d.depth_fill_le (Nat.le_sub_one_of_lt shallow) (by decide)
        exact ⟨d.isOrdered_fill ordered, Nat.lt_of_le_of_lt filled (by decide)⟩

/-- A file that holds a document's print is read as that document. -/
theorem readDocument_print {v : Json} (held : files path = .ok v.print) (ordered : v.IsOrdered)
    (shallow : v.depth < Scan.levelLimit) : readDocument files path none = .ok v := by
  have parsed := Json.parse_print ordered.isProper shallow
  rw [Json.normalize_of_isOrdered ordered] at parsed
  simp only [readDocument, held, Except.mapError, bind, Except.bind, parsed, pure, Except.pure]

/-- With defaults the same document is read, and its gaps are filled. -/
theorem readDocument_some {v : Json} (d : DefaultsSettings)
    (read : readDocument files path none = .ok v) :
    readDocument files path (some d) = .ok (d.fill v) := by
  unfold readDocument at read ⊢
  cases held : files path with
  | error reason =>
    rw [held] at read
    cases read
  | ok text =>
    cases parsed : Json.parse text with
    | error fault =>
      simp only [held, Except.mapError, bind, Except.bind, parsed] at read
      cases read
    | ok document =>
      simp only [held, Except.mapError, bind, Except.bind, parsed, pure, Except.pure] at read ⊢
      cases read
      rfl

theorem validateFile_of_read
    (read : readDocument files path (s.defaultsIf withDefaults) = .ok document) :
    validateFile s files path withDefaults =
      ((Validator.validate document).mapError Failure.invalid).map ProtocolReport.ofProtocol := by
  unfold validateFile
  rw [read]
  show ((Validator.validate document).mapError Failure.invalid >>= fun p =>
    pure (ProtocolReport.ofProtocol p)) = _
  cases Validator.validate document <;> rfl

theorem installFile_of_read (named : Text.isBlankText user = false)
    (read : readDocument files path (s.defaultsIf withDefaults) = .ok document) :
    installFile s files db by_ path user withDefaults =
      ((db.installDocument by_ document (Text.trim user)).1,
        (db.installDocument by_ document (Text.trim user)).2.mapError Failure.ofInstall) := by
  unfold installFile
  rw [named, read]
  rfl

/-- A file that cannot be read is no document with violations. -/
theorem readDocument_ne_invalid {defaults : Option DefaultsSettings} {errors : ValidationErrors} :
    readDocument files path defaults ≠ .error (.invalid errors) := by
  unfold readDocument
  cases files path with
  | error reason => nofun
  | ok text =>
    cases parsed : Json.parse text <;>
      simp [Except.mapError, bind, Except.bind, parsed, pure, Except.pure]

/-- A report is one on a document that was read and accepted. -/
theorem exists_of_validateFile_ok {report : ProtocolReport}
    (valid : validateFile s files path withDefaults = .ok report) :
    ∃ document p, readDocument files path (s.defaultsIf withDefaults) = .ok document ∧
      Validator.validate document = .ok p ∧ report = .ofProtocol p := by
  cases read : readDocument files path (s.defaultsIf withDefaults) with
  | error f =>
    unfold validateFile at valid
    rw [read] at valid
    cases valid
  | ok document =>
    rw [validateFile_of_read read] at valid
    cases verdict : Validator.validate document with
    | error e =>
      rw [verdict] at valid
      cases valid
    | ok p =>
      rw [verdict] at valid
      cases valid
      exact ⟨document, p, rfl, verdict, rfl⟩

/-- Violations are those of a document that was read and refused. -/
theorem exists_of_validateFile_invalid {errors : ValidationErrors}
    (refused : validateFile s files path withDefaults = .error (.invalid errors)) :
    ∃ document, readDocument files path (s.defaultsIf withDefaults) = .ok document ∧
      Validator.validate document = .error errors := by
  cases read : readDocument files path (s.defaultsIf withDefaults) with
  | error f =>
    unfold validateFile at refused
    rw [read] at refused
    cases refused
    exact absurd read readDocument_ne_invalid
  | ok document =>
    rw [validateFile_of_read read] at refused
    cases verdict : Validator.validate document with
    | error e =>
      rw [verdict] at refused
      cases refused
      exact ⟨document, rfl, verdict⟩
    | ok p =>
      rw [verdict] at refused
      cases refused

end Files

/-! ## §2. Counting what is stored. -/

/-- A plan has a field for each flattened category, a form or not. -/
theorem InstallPlan.length_fields_of (by_ : Provision) (p : ReviewProtocol) (user : String) :
    (of by_ p user).fields.length = (flatten p.categories).length := by
  unfold of
  cases enabled : p.extractionEnabled with
  | false =>
    have none : p.categories = [] := by simpa [ReviewProtocol.extractionEnabled] using enabled
    rw [none]
    rfl
  | true => exact List.length_map _

namespace Database

variable {db later : Database} {plan : InstallPlan} {by_ : Provision} {p : ReviewProtocol}
variable {document : Json} {user : String} {result : InstallResult}

/-- The fields of a stored plan are counted through its form. -/
theorem Stores.length_fields (stores : db.Stores plan) (coherent : plan.IsCoherent)
    (formless : plan.form = none → plan.fields = []) :
    (db.belongingTo .extractionField "form_id" .extractionForm
      (db.having .extractionForm "project_id" plan.project.id)).length = plan.fields.length := by
  rw [stores.having_form coherent]
  cases planned : plan.form with
  | none =>
    rw [formless planned]
    rfl
  | some f =>
    show ([f.toRow].flatMap fun o => db.having .extractionField "form_id" f.id).length = _
    rw [List.flatMap_singleton, stores.having_fields coherent planned, List.length_map]

/-- **The summary of a stored project counts what its protocol has.** -/
theorem Stores.counts_summaryOf (stores : db.Stores (InstallPlan.of by_ p user))
    (config : db.configOf (InstallPlan.of by_ p user).project.id =
      .ok (InstallPlan.of by_ p user).config) {summary : ProjectSummary}
    (told : db.summaryOf (InstallPlan.of by_ p user).project.id = .ok summary) :
    summary.extractionFields = (flatten p.categories).length ∧
      summary.reports = p.reports.length := by
  have formless : (InstallPlan.of by_ p user).form = none →
      (InstallPlan.of by_ p user).fields = [] := by
    intro none
    rcases InstallPlan.of_form_cases by_ p user with ⟨_, empty⟩ | ⟨f, start, some, _⟩
    · exact empty
    · rw [none] at some
      cases some
  have fields := stores.length_fields InstallPlan.isCoherent_of formless
  rw [InstallPlan.length_fields_of] at fields
  unfold summaryOf at told
  rw [config] at told
  cases project : db.project (InstallPlan.of by_ p user).project.id with
  | error e =>
    rw [project] at told
    cases told
  | ok r =>
    rw [project] at told
    cases told
    exact ⟨fields, rfl⟩

/-- **An installed project has a summary that counts what its document has, then and
later.** -/
theorem exists_counts_of_installed (reachable : db.Reachable) (clock : by_.now.IsClock)
    (proper : document.IsProper) (shallow : document.depth < Scan.levelLimit)
    (accepted : Validator.validate document = .ok p)
    (installed : (db.installDocument by_ document user).2 = .ok result)
    (leads : LeadsTo (db.installDocument by_ document user).1 later) :
    ∃ summary, later.summaryOf result.projectId = .ok summary ∧
      summary.extractionFields = (flatten p.categories).length ∧
        summary.reports = p.reports.length := by
  obtain ⟨-, told, writable, -, stores⟩ :=
    stores_of_installDocument reachable clock proper shallow accepted installed leads
  obtain ⟨summary, answer⟩ :=
    exists_summaryOf_installed reachable clock proper shallow accepted installed leads
  have config : later.configOf (InstallPlan.of by_ p user).project.id =
      .ok (InstallPlan.of by_ p user).config := by
    rw [configOf, stores.having_config InstallPlan.isCoherent_of, one]
    exact InstallPlan.ofRow_config clock writable
  subst told
  exact ⟨summary, answer, stores.counts_summaryOf config answer⟩

end Database

/-! ## §3. Both commands. -/

namespace Workspace

variable {w : Workspace} {s : Settings} {format : OutputFormat} {db : Database}
variable {by_ : Provision} {path user : String} {withDefaults : Bool}

/-- **The dry run agrees with the real run.**  A user is named, and whatever protocol the file
holds has lists that are not longer than there are positions and a plan with new ids.  Then a
report on a valid protocol promises that the file is refused when its label is taken, and is
installed under that label otherwise, with the reported numbers of fields and reports in the
summary, then and later; and where violations are reported, the installation gives the same
answer and leaves the database alone. -/
theorem install_agrees_with_validate (reachable : db.Reachable) (clock : by_.now.IsClock)
    (named : Text.isBlankText user = false)
    (few : ∀ document p, readDocument w.files path (s.defaultsIf withDefaults) = .ok document →
      Validator.validate document = .ok p → p.HasPositions)
    (fresh : ∀ document p plan,
      readDocument w.files path (s.defaultsIf withDefaults) = .ok document →
        Validator.validate document = .ok p →
          InstallPlan.build by_ p (Text.trim user) = .ok plan → plan.HasFreshIds db) :
    (∀ report, validateFile s w.files path withDefaults = .ok report →
      w.runOn s format by_ db (.validate path withDefaults) =
        (db, .printed format report.encode) ∧
      (db.HasLabel report.label →
        w.runOn s format by_ db (.install path user withDefaults) =
          (db, .failed format (.taken report.label))) ∧
      (¬db.HasLabel report.label → ∃ (after : Database) (result : InstallResult),
        w.runOn s format by_ db (.install path user withDefaults) =
            (after, .printed format result.encode) ∧
          result.label = report.label ∧
          ∀ later, LeadsTo after later → ∃ summary,
            later.summaryOf result.projectId = .ok summary ∧
              summary.extractionFields = report.extractionFields ∧
                summary.reports = report.reports)) ∧
    ∀ errors, validateFile s w.files path withDefaults = .error (.invalid errors) →
      w.runOn s format by_ db (.validate path withDefaults) =
          (db, .failed format (.invalid errors)) ∧
        w.runOn s format by_ db (.install path user withDefaults) =
          (db, .failed format (.invalid errors)) := by
  refine ⟨fun report valid => ?_, fun errors refused => ?_⟩
  · obtain ⟨document, p, read, accepted, rfl⟩ := exists_of_validateFile_ok valid
    obtain ⟨ordered, shallow⟩ := isOrdered_of_readDocument read
    have proper := ordered.isProper
    have outcome := install_outcome reachable (few document p read accepted)
      fun plan planned => fresh document p plan read accepted planned
    have same : db.installDocument by_ document (Text.trim user) =
        db.install by_ p (Text.trim user) := by
      rw [installDocument, accepted]
    refine ⟨by rw [runOn, valid]; rfl, fun taken => ?_, fun free => ?_⟩
    · rw [runOn, installFile_of_read named read, same, install_of_label_taken reachable.sound taken]
      rfl
    · obtain ⟨result, installed⟩ := outcome.2.2 document proper accepted free
      refine ⟨_, result, by rw [runOn, installFile_of_read named read, installed]; rfl, ?_, ?_⟩
      · rw [same] at installed
        rw [(write_of_install installed).2]
        rfl
      · exact fun later leads =>
          exists_counts_of_installed reachable clock proper shallow accepted installed leads
  · obtain ⟨document, read, verdict⟩ := exists_of_validateFile_invalid refused
    refine ⟨by rw [runOn, refused]; rfl, ?_⟩
    rw [runOn, installFile_of_read named read, installDocument, verdict]
    rfl

/-- A document that says no more than what it is called. -/
def sparseDocument : Json :=
  .object [("project", .object
    [("name", .text "Sparse review"), ("short_name", .text "Sparse")])]

/-- Every file holds the sparse document. -/
def sparseWorkspace : Workspace where
  files _ := .ok sparseDocument.print
  databases _ := .ok {}

/-- The protocol of the sparse document once its gaps are filled. -/
def sparseProtocol : ReviewProtocol where
  project := ⟨⟨"Sparse", rfl⟩, ⟨"Sparse review", by decide⟩, none⟩
  screening := none
  quality := none
  categories :=
    [.node ⟨⟨"notes", rfl⟩, some "Notes", false, none⟩ (.simple .text none none none) none]
  reporting := none

theorem read_sparseDocument (path : String) :
    readDocument sparseWorkspace.files path (Settings.defaultsIf {} true) =
      .ok (DefaultsSettings.fill {} sparseDocument) :=
  readDocument_some _ (readDocument_print rfl (by decide +kernel) (by decide))

theorem accepted_sparseDocument :
    Validator.validate (DefaultsSettings.fill {} sparseDocument) = .ok sparseProtocol := by
  refine Validator.validate_eq_ok_iff.2 ⟨?_, rfl⟩
  rw [Validator.errors, Validator.grammarErrors, ProtocolGrammar.grammar_eq]
  decide +kernel

theorem eq_sparseProtocol {document : Json} {p : ReviewProtocol}
    (read : readDocument sparseWorkspace.files path (Settings.defaultsIf {} true) = .ok document)
    (accepted : Validator.validate document = .ok p) : p = sparseProtocol := by
  rw [read_sparseDocument] at read
  obtain rfl := Except.ok.inj read
  rw [accepted_sparseDocument] at accepted
  exact (Except.ok.inj accepted).symm

theorem hasPositions_sparseProtocol : sparseProtocol.HasPositions :=
  ⟨nofun, nofun, nofun, nofun, by decide +kernel⟩

theorem hasFreshIds_sparseProtocol :
    (InstallPlan.of countingProvision sparseProtocol "ada").HasFreshIds {} :=
  ⟨by decide +kernel, by decide +kernel⟩

/-- With its gaps filled, the sparse document is installed with one field and no reports. -/
theorem install_agrees_with_validate_sparse :
    ∃ after result, sparseWorkspace.runOn {} .raw countingProvision {}
        (.install "sparse.json" " ada " true) =
          (after, .printed .raw (InstallResult.encode result)) ∧
      result.label = "sparse" ∧ ∃ summary, after.summaryOf result.projectId = .ok summary ∧
        summary.extractionFields = 1 ∧ summary.reports = 0 := by
  have valid : validateFile {} sparseWorkspace.files "sparse.json" true =
      .ok (.ofProtocol sparseProtocol) := by
    rw [validateFile_of_read (read_sparseDocument _), accepted_sparseDocument]
    rfl
  have agrees := @install_agrees_with_validate sparseWorkspace {} .raw {} countingProvision
    "sparse.json" " ada " true .empty ⟨by decide, by decide, by decide⟩ (by decide +kernel)
    (fun document p read accepted => by
      obtain rfl := eq_sparseProtocol read accepted
      exact hasPositions_sparseProtocol)
    (fun document p plan read accepted planned => by
      have trimmed : Text.trim " ada " = "ada" := by decide +kernel
      obtain rfl := eq_sparseProtocol read accepted
      rw [InstallPlan.build_eq, trimmed] at planned
      obtain rfl := Except.ok.inj planned
      exact hasFreshIds_sparseProtocol)
  have free : ¬({} : Database).HasLabel (ProtocolReport.ofProtocol sparseProtocol).label := by
    rintro ⟨row, held, -⟩
    cases held
  obtain ⟨after, result, run, label, told⟩ := (agrees.1 _ valid).2.2 free
  obtain ⟨summary, answer, fields, reports⟩ := told after .refl
  have lower : (ProtocolReport.ofProtocol sparseProtocol).label = "sparse" := by decide +kernel
  have one : (ProtocolReport.ofProtocol sparseProtocol).extractionFields = 1 := by decide +kernel
  have zero : (ProtocolReport.ofProtocol sparseProtocol).reports = 0 := by decide +kernel
  exact ⟨after, result, run, label.trans lower, summary, answer, fields.trans one,
    reports.trans zero⟩

end Workspace

end LiteratureReview
