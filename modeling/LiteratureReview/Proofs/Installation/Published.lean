/-
  LiteratureReview.Proofs.Installation.Published
  ──────────────────────────────────────────────
  The published schemas describe what is produced.

  Every row, every flattened category and every answer is accepted under the
  name it is published by, whatever is in it (`accepts_encode`).  The
  configuration alone asks for more: it carries a protocol, whose schema is
  embedded in its own.  What is written of an accepted protocol is a
  protocol again, and the embedded definitions decide what they decide on
  their own (`ProtocolGrammar.holds_root_iff`).
-/
import LiteratureReview.Proofs.Installation.Answers
import LiteratureReview.Proofs.Schema.Conformance
import LiteratureReview.Proofs.Validation.WritingBack

namespace LiteratureReview

open Json Grammar Schema Registry

/-! ## §1. Rows. -/

theorem Project.accepts_encode (r : Project) : Accepts "project" r.encode :=
  accepts_written (d := RowGrammar.project) rfl rfl (by decide : type.fields.Nodup) fun _ _ =>
    .cons (fits_text ..) <| .cons (fits_text ..) <| .cons (fits_text ..) <|
    .cons (fits_textOrNull ..) <|
    .cons (fits_reference _ rfl (holds_spelling (by cases r.status; decide))) <|
    .cons (fits_text ..) <| .cons (fits_text ..) .nil

theorem ProjectMember.accepts_encode (r : ProjectMember) : Accepts "project_member" r.encode :=
  accepts_written (d := RowGrammar.projectMember) rfl rfl (by decide : type.fields.Nodup)
    fun _ _ => .cons (fits_text ..) <| .cons (fits_text ..) <| .cons (fits_text ..) <|
    .cons (fits_reference _ rfl (holds_spelling (by cases r.role; decide))) <|
    .cons (fits_text ..) .nil

theorem ExclusionCriterion.accepts_encode (r : ExclusionCriterion) :
    Accepts "exclusion_criterion" r.encode :=
  accepts_written (d := RowGrammar.exclusionCriterion) rfl rfl (by decide : type.fields.Nodup)
    fun _ _ => .cons (fits_text ..) <| .cons (fits_text ..) <| .cons (fits_text ..) <|
    .cons (fits_nat ..) <| .cons (fits_text ..) .nil

theorem ScreeningPhase.accepts_encode (r : ScreeningPhase) :
    Accepts "screening_phase" r.encode :=
  accepts_written (d := RowGrammar.screeningPhase) rfl rfl (by decide : type.fields.Nodup)
    fun _ _ => .cons (fits_text ..) <| .cons (fits_text ..) <| .cons (fits_text ..) <|
    .cons (fits_textOrNull ..) <| .cons (fits_texts ..) <| .cons (fits_nat ..) <|
    .cons (fits_text ..) .nil

theorem QaTemplate.accepts_encode (r : QaTemplate) : Accepts "qa_template" r.encode :=
  accepts_written (d := RowGrammar.qaTemplate) rfl rfl (by decide : type.fields.Nodup)
    fun _ _ => .cons (fits_text ..) <| .cons (fits_text ..) <| .cons (fits_double ..) <|
    .cons (fits_text ..) .nil

theorem QaQuestion.accepts_encode (r : QaQuestion) : Accepts "qa_question" r.encode :=
  accepts_written (d := RowGrammar.qaQuestion) rfl rfl (by decide : type.fields.Nodup)
    fun _ _ => .cons (fits_text ..) <| .cons (fits_text ..) <| .cons (fits_text ..) <|
    .cons (fits_nat ..) .nil

theorem QaOption.accepts_encode (r : QaOption) : Accepts "qa_option" r.encode :=
  accepts_written (d := RowGrammar.qaOption) rfl rfl (by decide : type.fields.Nodup)
    fun _ _ => .cons (fits_text ..) <| .cons (fits_text ..) <| .cons (fits_text ..) <|
    .cons (fits_double ..) <| .cons (fits_flag ..) <| .cons (fits_nat ..) .nil

theorem ExtractionForm.accepts_encode (r : ExtractionForm) :
    Accepts "extraction_form" r.encode :=
  accepts_written (d := RowGrammar.extractionForm) rfl rfl (by decide : type.fields.Nodup)
    fun _ _ => .cons (fits_text ..) <| .cons (fits_text ..) <| .cons (fits_flag ..) <|
    .cons (fits_textOrNull ..) <| .cons (fits_text ..) .nil

/-- The settings of a field fit the definition they have in two schemas. -/
theorem FieldConfig.holds_fieldConfig {known : Known} (c : FieldConfig) :
    RowGrammar.fieldConfig.holds known c.encode.normalize = true := by
  rw [c.encode_eq]
  exact holds_recordOf c.distinct <|
    .cons (fits_optional _ c.values holds_texts) <|
    .cons (fits_optional _ c.dynamicSubtype holds_textOrNull) <|
    .cons (fits_optional _ c.initialValues holds_texts) <|
    .cons (fits_optional _ c.referenceName holds_textOrNull) <|
    .cons (fits_optional _ c.dependsOn holds_textOrNull) <|
    .cons (fits_optional _ c.pattern holds_textOrNull) <|
    .cons (fits_optional _ c.maxChar fun n => holds_natOrNull n.toNat) <|
    .cons (fits_optional _ c.initialValue fun _ => holds_always) <|
    .cons (fits_optional _ c.numberOfValues holds_i64) <|
    .cons (fits_flag _ c.mandatory) <|
    .cons (fits_optional _ c.parent holds_textOrNull) .nil

theorem ExtractionField.accepts_encode (r : ExtractionField) :
    Accepts "extraction_field" r.encode :=
  accepts_written (d := RowGrammar.extractionField) rfl rfl (by decide : type.fields.Nodup)
    fun _ _ => .cons (fits_text ..) <| .cons (fits_text ..) <| .cons (fits_text ..) <|
    .cons (fits_text ..) <|
    .cons (fits_reference _ rfl (holds_spelling (by cases r.kind <;> decide))) <|
    .cons (fits_flag ..) <| .cons (fits_nat ..) <|
    .cons (fits_reference _ rfl r.config.holds_fieldConfig) <| .cons (fits_textOrNull ..) .nil

theorem FieldDescriptor.accepts_encode (d : FieldDescriptor) :
    Accepts "field_descriptor" d.encode :=
  accepts_written (d := RowGrammar.fieldDescriptor) rfl rfl (by decide : type.fields.Nodup)
    fun _ _ => .cons (fits_text ..) <| .cons (fits_text ..) <|
    .cons (fits_reference _ rfl (holds_spelling (by cases d.kind <;> decide))) <|
    .cons (fits_flag ..) <| .cons (fits_nat ..) <| .cons (fits_natOrNull ..) <|
    .cons (fits_reference _ rfl d.config.holds_fieldConfig) .nil

/-! ## §2. Answers to callers. -/

theorem InstallResult.accepts_encode (r : InstallResult) : Accepts "install_result" r.encode :=
  accepts_written (d := RowGrammar.installResult) rfl rfl (by decide : type.fields.Nodup)
    fun _ _ => .cons (fits_text ..) <| .cons (fits_text ..) <| .cons (fits_text ..) .nil

theorem FieldError.accepts_encode (e : FieldError) : Accepts "field_error" e.encode :=
  accepts_written (d := RowGrammar.fieldError) rfl rfl (by decide : type.fields.Nodup)
    fun _ _ => .cons (fits_text ..) <| .cons (fits_text ..) .nil

theorem ProjectSummary.accepts_encode (s : ProjectSummary) :
    Accepts "project_summary" s.encode :=
  accepts_written (d := RowGrammar.projectSummary) rfl rfl (by decide : type.fields.Nodup)
    fun _ _ => .cons (fits_text ..) <| .cons (fits_text ..) <| .cons (fits_text ..) <|
    .cons (fits_text ..) <| .cons (fits_flag ..) <| .cons (fits_flag ..) <|
    .cons (fits_flag ..) <| .cons (fits_nat ..) <| .cons (fits_nat ..) <|
    .cons (fits_nat ..) <| .cons (fits_nat ..) <| .cons (fits_nat ..) <| .cons (fits_nat ..) .nil

/-! ## §3. The configuration. -/

/-- Inserting an entry does not change what stands under other keys. -/
theorem lookup_orderedInsert_of_ne {name : String} {e : String × Schema}
    {entries : List (String × Schema)} (other : name ≠ e.1) :
    (entries.orderedInsert (fun a b => a.1 ≤ b.1) e).lookup name = entries.lookup name := by
  have skip : ∀ rest : List (String × Schema), List.lookup name (e :: rest) = rest.lookup name :=
    fun rest => by rw [List.lookup_cons, beq_false_of_ne other]
  induction entries with
  | nil => exact skip []
  | cons first rest ih =>
    rw [List.orderedInsert]
    split
    · exact skip _
    · rw [List.lookup_cons, List.lookup_cons, ih]

/-- The schema of configurations has the definitions of protocols. -/
theorem RowGrammar.includes_document :
    RowGrammar.projectConfig.Includes ProtocolGrammar.document := by
  intro name s found
  -- the definitions that come in addition have names of their own
  have other : ∀ k, ProtocolGrammar.document.definitions.lookup k = none → name ≠ k := by
    rintro k none rfl
    rw [none] at found
    cases found
  show List.lookup name (List.foldr _ _ _) = _
  rw [List.foldr_cons, List.foldr_cons, List.foldr_cons, List.foldr_nil,
    lookup_orderedInsert_of_ne (other _ rfl), lookup_orderedInsert_of_ne (other _ rfl),
    lookup_orderedInsert_of_ne (other _ rfl)]
  exact found

/-- **A configuration is accepted when its protocol is written as a protocol.** -/
theorem ProjectConfig.accepts_encode (r : ProjectConfig)
    (protocol : IsProtocol .byValue r.protocol.encode.normalize) :
    Accepts "project_config" r.encode := by
  refine accepts_written (d := RowGrammar.projectConfig) rfl rfl (by decide : type.fields.Nodup)
    fun n enough => ?_
  have embedded : ProtocolGrammar.root.holds (RowGrammar.projectConfig.knows n)
      r.protocol.encode.normalize = true := by
    -- a level is given more than the three references that the protocol takes there
    have budget : (r.protocol.encode.normalize.depth + 1) * 24 ≤ n :=
      enough ("protocol", r.protocol.encode) (by simp [member])
    exact (ProtocolGrammar.holds_root_iff RowGrammar.includes_document (by omega)).2 protocol
  exact .cons (fits_text ..) <| .cons (fits_text ..) <| .cons (fits_flag ..) <|
    .cons (fits_flag ..) <| .cons (fits_flag ..) <|
    .cons (fits_reference _ rfl (holds_spelling (by cases r.conflictType <;> decide))) <|
    .cons (fits_reference _ rfl (holds_spelling (by cases r.conflictResolution <;> decide))) <|
    .cons (fits_nat ..) <| .cons (fits_nat ..) <| .cons (fits_flag ..) <|
    .cons (fits_reference _ rfl (holds_oneOfTexts_iff.2
      ⟨r.assignmentMode.name, by cases r.assignmentMode <;> decide, rfl⟩)) <|
    .cons (fits_flag ..) <| .cons (fits_flag ..) <|
    .cons (fits_reference _ rfl embedded) <| .cons (fits_text ..) .nil

/-- What is written of an accepted protocol is a protocol. -/
theorem ReviewProtocol.isProtocol_encode {document : Json} {p : ReviewProtocol}
    (proper : document.IsProper) (accepted : Validator.validate document = .ok p) :
    IsProtocol .byValue p.encode.normalize := by
  have written := canon_of_decode proper (Validator.isProtocol_of_validate proper accepted)
    (Validator.validate_eq_ok_iff.1 accepted).2
  have again := (Validator.validate_canon_iff proper).2 accepted
  rw [written] at again
  exact (Validator.errors_eq_nil_iff.1 (Validator.validate_eq_ok_iff.1 again).1).1

/-! ## §4. The rows of a plan. -/

namespace InstallPlan

/-- Every row of a plan is accepted under the name of its kind, and its scores are numbers that
JSON has. -/
structure IsPublished (plan : InstallPlan) : Prop where
  scores : plan.HasFiniteScores
  project : Accepts "project" plan.project.encode
  member : Accepts "project_member" plan.member.encode
  config : Accepts "project_config" plan.config.encode
  criteria : ∀ r ∈ plan.criteria, Accepts "exclusion_criterion" r.encode
  phases : ∀ r ∈ plan.phases, Accepts "screening_phase" r.encode
  template : ∀ q, plan.quality = some q → Accepts "qa_template" q.template.encode
  questions : ∀ q, plan.quality = some q → ∀ r ∈ q.questions, Accepts "qa_question" r.encode
  options : ∀ q, plan.quality = some q → ∀ r ∈ q.options, Accepts "qa_option" r.encode
  form : ∀ f, plan.form = some f → Accepts "extraction_form" f.encode
  fields : ∀ r ∈ plan.fields, Accepts "extraction_field" r.encode

theorem isPublished {plan : InstallPlan} (finite : plan.HasFiniteScores)
    (protocol : IsProtocol .byValue plan.config.protocol.encode.normalize) :
    plan.IsPublished where
  scores := finite
  project := plan.project.accepts_encode
  member := plan.member.accepts_encode
  config := plan.config.accepts_encode protocol
  criteria r _ := r.accepts_encode
  phases r _ := r.accepts_encode
  template q _ := q.template.accepts_encode
  questions _ _ r _ := r.accepts_encode
  options _ _ r _ := r.accepts_encode
  form f _ := f.accepts_encode
  fields r _ := r.accepts_encode

end InstallPlan

/-! ## §5. The summary of an installed project. -/

namespace Database

variable {db later : Database} {plan : InstallPlan} {by_ : Provision} {p : ReviewProtocol}
variable {document : Json} {user : String} {result : InstallResult}

/-- A stored plan has a summary once its configuration is read back. -/
theorem Stores.exists_summaryOf (stores : db.Stores plan) (coherent : plan.IsCoherent)
    (clock : plan.project.createdAt.IsClock)
    (config : ProjectConfig.ofRow plan.config.toRow = .ok plan.config) :
    ∃ s, db.summaryOf plan.project.id = .ok s := by
  obtain ⟨r, project⟩ := plan.project.exists_ofRow_toRow clock
  rw [summaryOf, Database.project, stores.having_itself, configOf, stores.having_config coherent,
    one, one, project, config]
  exact ⟨_, rfl⟩

/-- **An installed project has a summary, then and later**, when its document is of less than
128 levels and its time is one of a clock. -/
theorem exists_summaryOf_installed (reachable : db.Reachable) (clock : by_.now.IsClock)
    (proper : document.IsProper) (shallow : document.depth < Scan.levelLimit)
    (accepted : Validator.validate document = .ok p)
    (installed : (db.installDocument by_ document user).2 = .ok result)
    (leads : LeadsTo (db.installDocument by_ document user).1 later) :
    ∃ s, later.summaryOf (InstallPlan.of by_ p user).project.id = .ok s := by
  obtain ⟨-, -, writable, -, stores⟩ :=
    stores_of_installDocument reachable clock proper shallow accepted installed leads
  exact stores.exists_summaryOf InstallPlan.isCoherent_of clock
    (InstallPlan.ofRow_config clock writable)

/-! ## §6. Whatever is produced. -/

/-- **Whatever is produced from an accepted document is accepted under its published name**:
the rows of its plan and the answer to its installation, its flattened categories, the summary
of its project, which there is then and later, and the entries of any list of violations. -/
theorem accepts_produced (proper : document.IsProper)
    (accepted : Validator.validate document = .ok p) (by_ : Provision) (user : String) :
    ∃ plan, InstallPlan.build by_ p user = .ok plan ∧ plan.IsPublished ∧
      (∀ d ∈ flatten p.categories, Accepts "field_descriptor" d.encode) ∧
      Accepts "install_result" plan.result.encode ∧
      (∀ (db : Database) id s, db.summaryOf id = .ok s → Accepts "project_summary" s.encode) ∧
      (∀ (db later : Database) result, db.Reachable → by_.now.IsClock →
        document.depth < Scan.levelLimit →
          (db.installDocument by_ document user).2 = .ok result →
            LeadsTo (db.installDocument by_ document user).1 later →
              ∃ s, later.summaryOf plan.project.id = .ok s) ∧
      ∀ refused : ValidationErrors, ∀ e ∈ refused.errors, Accepts "field_error" e.encode := by
  have protocol := ReviewProtocol.isProtocol_encode proper accepted
  have finite : p.HasFiniteScores :=
    ReviewProtocol.hasFiniteScores_of_decode proper.hasProperNumbers
      (Validator.validate_eq_ok_iff.1 accepted).2
  refine ⟨_, InstallPlan.build_eq by_ p user,
    InstallPlan.isPublished (InstallPlan.hasFiniteScores_of finite) protocol,
    fun d _ => d.accepts_encode, InstallResult.accepts_encode _, fun _ _ s _ => s.accepts_encode,
    ?_, fun _ e _ => e.accepts_encode⟩
  intro db later result reachable clock shallow installed leads
  exact exists_summaryOf_installed reachable clock proper shallow accepted installed leads

theorem accepts_produced_smallProtocol :
    ∃ plan, InstallPlan.build countingProvision smallProtocol "ada" = .ok plan ∧
      plan.IsPublished ∧
      ∃ s, (installDocument {} countingProvision smallProtocol.encode "ada").1.summaryOf
          plan.project.id = .ok s ∧ Accepts "project_summary" s.encode := by
  have clock : countingProvision.now.IsClock := ⟨by decide, by decide, by decide⟩
  obtain ⟨plan, planned, rows, -, -, described, answered, -⟩ :=
    accepts_produced isProper_smallProtocol accepted_smallProtocol countingProvision "ada"
  obtain ⟨s, summary⟩ :=
    answered {} _ _ .empty clock (by decide) install_smallDocument .refl
  exact ⟨plan, planned, rows, s, summary, described _ _ _ summary⟩

end Database

end LiteratureReview
