/-
  LiteratureReview.Proofs.Installation.Closure
  ────────────────────────────────────────────
  A plan refers to nothing but its own rows.

  Ids are drawn one after the other, each for one row (`draws`); the rows of
  a plan have exactly these ids, though questions are written before the
  options that are drawn between them (`ids_perm_drawn`).  A row refers to rows
  in front of it (`Grounded.earlier`), an option to the question it was made
  for, and a field to that of the category above (`belongsTogether_fields`).

    • `build_isClosed` — making a plan cannot fail, and all of this holds.
-/
import LiteratureReview.Proofs.Extraction.Recovery
import LiteratureReview.Proofs.Installation.Mirroring

namespace LiteratureReview

open Category Database

/-! ## §1. Drawing ids. -/

/-- The ids that are drawn for rows of some kinds, from word number `start` on. -/
def Provision.drawn (by_ : Provision) (start : Nat) (kinds : List EntityType) : List String :=
  kinds.mapIdx fun i entity => entity.rowId (by_.words (start + i))

/-- The kinds of the rows of a quality assessment, in the order in which ids are drawn: the
options of a question follow it. -/
def QualitySection.draws (q : QualitySection) : List EntityType :=
  .qaTemplate :: (List.replicate q.questions.length
    (.qaQuestion :: List.replicate q.responses.length .qaOption)).flatten

/-- The kinds of the rows of a screening section; one phase is made up where none is
declared. -/
def ScreeningSection.draws (s : ScreeningSection) : List EntityType :=
  List.replicate s.exclusionCriteria.length .exclusionCriterion
    ++ List.replicate (max 1 s.declaredPhases.length) .screeningPhase

/-- The kinds of rows for which ids are drawn, in that order. -/
def ReviewProtocol.draws (p : ReviewProtocol) : List EntityType :=
  [.project, .projectMember, .projectConfig]
    ++ p.screening.elim [] ScreeningSection.draws
    ++ p.quality.elim [] QualitySection.draws
    ++ if p.extractionEnabled then
        .extractionForm :: List.replicate (nodeCounts p.categories) .extractionField
      else []

namespace Provision

variable {by_ : Provision} {start : Nat}

theorem drawn_append (a b : List EntityType) :
    by_.drawn start (a ++ b) = by_.drawn start a ++ by_.drawn (start + a.length) b := by
  unfold drawn
  rw [List.mapIdx_append]
  refine congrArg _ (congrArg (List.mapIdx · b) ?_)
  funext i entity
  rw [Nat.add_comm i, Nat.add_assoc]

theorem drawn_cons (entity : EntityType) (kinds : List EntityType) :
    by_.drawn start (entity :: kinds) =
      entity.rowId (by_.words start) :: by_.drawn (start + 1) kinds :=
  drawn_append [entity] kinds

/-- The ids of rows that are made of the entries of a list at their places. -/
theorem map_mapIdx_eq_drawn {α β : Type} {make : Nat → α → β} {id : β → String}
    {entity : EntityType} {items : List α}
    (named : ∀ i a, id (make i a) = entity.rowId (by_.words (start + i))) :
    (items.mapIdx make).map id = by_.drawn start (List.replicate items.length entity) := by
  unfold drawn
  refine List.ext_getElem (by simp) fun i left right => ?_
  simp [named]

/-- The same kinds, time and again. -/
theorem drawn_flatten_replicate (n : Nat) (kinds : List EntityType) :
    by_.drawn start (List.replicate n kinds).flatten =
      (List.range n).flatMap fun i => by_.drawn (start + i * kinds.length) kinds := by
  induction n generalizing start with
  | zero => rfl
  | succ n ih =>
    have next : ∀ i, start + kinds.length + i * kinds.length =
        start + (i + 1) * kinds.length := by
      intro i
      rw [Nat.succ_mul]
      omega
    rw [List.replicate_succ, List.flatten_cons, drawn_append, ih, List.range_succ_eq_map,
      List.flatMap_cons, List.flatMap_map, Nat.zero_mul, Nat.add_zero]
    simp only [next]

end Provision

open Provision

/-! ## §2. The ids of a plan. -/

namespace Plan

variable {by_ : Provision} {projectId : String} {start : Nat}

theorem ids_criteria {s : ScreeningSection} : (criteria by_ projectId start s).map (·.id) =
    by_.drawn start (List.replicate s.exclusionCriteria.length .exclusionCriterion) :=
  map_mapIdx_eq_drawn fun _ _ => rfl

theorem ids_phases {s : ScreeningSection} : (phases by_ projectId start s).map (·.id) =
    by_.drawn start (List.replicate (max 1 s.declaredPhases.length) .screeningPhase) := by
  unfold phases
  cases s.declaredPhases with
  | nil => rfl
  | cons d rest =>
    have some : max 1 (d :: rest).length = (d :: rest).length :=
      Nat.max_eq_right (Nat.succ_pos _)
    rw [some]
    exact map_mapIdx_eq_drawn fun _ _ => rfl

theorem ids_options {questionId : String} {responses : List ResponseSection} :
    (options by_ questionId start responses).map (·.id) =
      by_.drawn start (List.replicate responses.length .qaOption) :=
  map_mapIdx_eq_drawn fun _ _ => rfl

theorem ids_questions {q : QualitySection} : (quality by_ projectId start q).questions.map (·.id) =
    (List.range q.questions.length).map fun i =>
      EntityType.qaQuestion.rowId (by_.words (start + 1 + i * (q.responses.length + 1))) := by
  show (List.mapIdx _ q.questions).map _ = _
  refine List.ext_getElem (by simp) fun i left right => ?_
  simp

theorem ids_optionGroups {q : QualitySection} :
    (quality by_ projectId start q).options.map (·.id) =
      (List.range q.questions.length).flatMap fun i =>
        by_.drawn (start + 1 + i * (q.responses.length + 1) + 1)
          (List.replicate q.responses.length .qaOption) := by
  rw [options_quality, List.map_flatten, List.flatMap_def]
  refine congrArg List.flatten (List.ext_getElem ?_ fun i left right => ?_)
  · rw [List.length_map, optionGroups, List.length_mapIdx, length_questions, List.length_map,
      List.length_range]
  · rw [List.getElem_map, List.getElem_map, List.getElem_range]
    simp only [optionGroups, List.getElem_mapIdx]
    exact ids_options

/-- From one question to the next, an id is drawn for it and for each response. -/
theorem length_stride {n : Nat} :
    (EntityType.qaQuestion :: List.replicate n EntityType.qaOption).length = n + 1 := by
  rw [List.length_cons, List.length_replicate]

/-- Questions are written before all options, though their ids are drawn in between. -/
theorem ids_quality_perm {q : QualitySection} :
    ((quality by_ projectId start q).template.id
      :: (quality by_ projectId start q).questions.map (·.id)
      ++ (quality by_ projectId start q).options.map (·.id)).Perm (by_.drawn start q.draws) := by
  rw [QualitySection.draws, drawn_cons, drawn_flatten_replicate, length_stride, ids_questions,
    ids_optionGroups, List.cons_append]
  simp only [drawn_cons]
  exact (List.map_append_flatMap_perm ..).cons _

theorem ids_fields {formId : String} {categories : List Category} :
    ((flatten categories).map (fieldOf by_ formId start)).map (·.id) =
      by_.drawn start (List.replicate (nodeCounts categories) .extractionField) := by
  unfold drawn
  refine List.ext_getElem (by simp [length_flatten]) fun i left right => ?_
  have inside : i < (flatten categories).length := by simpa using left
  simp [fieldOf, order_getElem inside]

theorem length_draws (q : QualitySection) : q.draws.length = qualityCount q := by
  unfold QualitySection.draws qualityCount
  rw [List.length_cons, List.length_flatten, List.map_replicate, length_stride, List.sum_replicate,
    Nat.nsmul_eq_mul, Nat.mul_succ]
  omega

end Plan

namespace InstallPlan

variable {by_ : Provision} {p : ReviewProtocol} {user : String}

/-- The ids of all rows, in the order in which they are written. -/
def ids (plan : InstallPlan) : List Cell := plan.rows.map fun w => w.1.cellAt "id" w.2

theorem map_id_rows {α : Type} (entity : EntityType) (toRow : α → Row) {id : α → String}
    {rest : α → Row} (named : ∀ r, toRow r = .text (id r) :: rest r) (items : List α) :
    (items.map fun r => (entity, toRow r)).map (fun w => w.1.cellAt "id" w.2) =
      (items.map id).map Cell.text := by
  rw [List.map_map, List.map_map]
  refine List.map_congr_left fun r _ => ?_
  show entity.cellAt "id" (toRow r) = .text (id r)
  rw [named, EntityType.cellAt_id]
  rfl

theorem ids_qualityRows (quality : Option QualityPlan) :
    (qualityRows quality).map (fun w => w.1.cellAt "id" w.2) =
      (quality.elim [] fun q =>
        q.template.id :: q.questions.map (·.id) ++ q.options.map (·.id)).map Cell.text := by
  cases quality with
  | none => rfl
  | some q =>
    have questions := map_id_rows .qaQuestion QaQuestion.toRow (fun _ => rfl) q.questions
    have options := map_id_rows .qaOption QaOption.toRow (fun _ => rfl) q.options
    rw [qualityRows, List.map_append, List.map_cons, questions, options, Option.elim_some,
      List.map_append, List.map_cons]
    rfl

theorem ids_formRows (form : Option ExtractionForm) (fields : List ExtractionField) :
    (formRows form fields).map (fun w => w.1.cellAt "id" w.2) =
      (form.elim [] fun f => f.id :: fields.map (·.id)).map Cell.text := by
  cases form with
  | none => rfl
  | some f =>
    have fields := map_id_rows .extractionField ExtractionField.toRow (fun _ => rfl) fields
    rw [formRows, List.map_cons, fields, Option.elim_some, List.map_cons]
    rfl

theorem ids_eq (plan : InstallPlan) : plan.ids =
    ([plan.project.id, plan.member.id, plan.config.id]
      ++ (plan.criteria.map (·.id) ++ plan.phases.map (·.id))
      ++ plan.quality.elim [] (fun q =>
          q.template.id :: q.questions.map (·.id) ++ q.options.map (·.id))
      ++ plan.form.elim [] (fun f => f.id :: plan.fields.map (·.id))).map Cell.text := by
  have criteria :=
    map_id_rows .exclusionCriterion ExclusionCriterion.toRow (fun _ => rfl) plan.criteria
  have phases := map_id_rows .screeningPhase ScreeningPhase.toRow (fun _ => rfl) plan.phases
  unfold ids rows
  simp only [List.map_append, criteria, phases, ids_qualityRows, ids_formRows,
    List.append_assoc]
  rfl

/-- The ids of criteria and phases are the first that are drawn after three. -/
theorem ids_screening : (of by_ p user).criteria.map (·.id) ++ (of by_ p user).phases.map (·.id) =
    by_.drawn 3 (p.screening.elim [] ScreeningSection.draws) := by
  unfold of
  cases p.screening with
  | none => rfl
  | some s =>
    have count : (Plan.criteria by_ (EntityType.project.rowId (by_.words 0)) 3 s).length =
        s.exclusionCriteria.length := List.length_mapIdx
    show (Plan.criteria by_ _ 3 s).map _ ++ (Plan.phases by_ _ _ s).map _ = _
    rw [Option.elim_some, ScreeningSection.draws, drawn_append, Plan.ids_criteria,
      Plan.ids_phases, List.length_replicate]
    exact congrArg _ (congrArg (by_.drawn · _) (congrArg (3 + ·) count))

theorem length_screening : (of by_ p user).criteria.length + (of by_ p user).phases.length =
    (p.screening.elim [] ScreeningSection.draws).length := by
  have same := congrArg List.length (@ids_screening by_ p user)
  simpa [drawn] using same

theorem ids_quality_perm : ((of by_ p user).quality.elim [] fun q =>
    q.template.id :: q.questions.map (·.id) ++ q.options.map (·.id)).Perm
      (by_.drawn (3 + (p.screening.elim [] ScreeningSection.draws).length)
        (p.quality.elim [] QualitySection.draws)) := by
  have made : (of by_ p user).quality = p.quality.map (Plan.quality by_ (of by_ p user).project.id
      (3 + (of by_ p user).criteria.length + (of by_ p user).phases.length)) := rfl
  rw [made, Nat.add_assoc, length_screening]
  cases p.quality with
  | none => exact List.Perm.refl _
  | some q => exact Plan.ids_quality_perm

theorem ids_form : ((of by_ p user).form.elim [] fun f =>
    f.id :: (of by_ p user).fields.map (·.id)) =
      by_.drawn (3 + (p.screening.elim [] ScreeningSection.draws).length
          + (p.quality.elim [] QualitySection.draws).length)
        (if p.extractionEnabled then
          .extractionForm :: List.replicate (nodeCounts p.categories) .extractionField
        else []) := by
  have count : (p.quality.elim [] QualitySection.draws).length =
      (p.quality.map Plan.qualityCount).getD 0 := by
    cases p.quality with
    | none => rfl
    | some q => exact Plan.length_draws q
  rw [count, ← @length_screening by_ p user, ← Nat.add_assoc]
  unfold of
  cases p.extractionEnabled with
  | false => rfl
  | true =>
    rw [if_pos rfl, drawn_cons, ← Plan.ids_fields]
    rfl

/-- **The rows of a plan have the ids that were drawn, each one of its own.** -/
theorem ids_perm_drawn :
    (of by_ p user).ids.Perm ((by_.drawn 0 p.draws).map Cell.text) := by
  have head : [EntityType.project, .projectMember, .projectConfig].length = 3 := rfl
  have first : by_.drawn 0 [.project, .projectMember, .projectConfig] =
      [(of by_ p user).project.id, (of by_ p user).member.id, (of by_ p user).config.id] := rfl
  rw [ids_eq, ReviewProtocol.draws, drawn_append, drawn_append, drawn_append, ids_screening,
    ids_form]
  simp only [List.length_append, head, Nat.zero_add, first]
  exact ((ids_quality_perm.append_left _).append_right _).map _

end InstallPlan

/-! ## §3. References. -/

/-- What a row refers to is known before, or written in front of it. -/
theorem Database.Grounded.earlier {known : List (EntityType × Cell)}
    {writes : List (EntityType × Row)} (h : Grounded known writes) {i : Nat}
    {w : EntityType × Row} (there : writes[i]? = some w) {ref : EntityType × Cell}
    (refers : ref ∈ w.1.references w.2) :
    ref.2 = .null ∨ ref ∈ known ∨ ∃ j < i, writes[j]?.map identify = some ref := by
  induction writes generalizing known i with
  | nil => cases there
  | cons first rest ih =>
    cases i with
    | zero =>
      cases there
      exact (h.1 ref refers).imp_right .inl
    | succ i =>
      -- what is known to the rest was known before, or is the first row
      obtain missing | mem | ⟨j, before, same⟩ := ih h.2 there
      · exact .inl missing
      · obtain here | before := List.mem_cons.1 mem
        · exact .inr (.inr ⟨0, Nat.succ_pos i, congrArg some here.symm⟩)
        · exact .inr (.inl before)
      · exact .inr (.inr ⟨j + 1, Nat.succ_lt_succ before, same⟩)

namespace InstallPlan

variable {by_ : Provision} {p : ReviewProtocol} {user : String}

/-- Nothing but the parent of a field may be missing. -/
theorem eq_parent_of_null {plan : InstallPlan} :
    ∀ w ∈ plan.rows, ∀ ref ∈ w.1.references w.2, ref.2 = .null →
      ref = (.extractionField, .null) := by
  -- all other references are texts
  have text : ∀ {entity : EntityType} {s : String} {ref : EntityType × Cell},
      ref ∈ [(entity, Cell.text s)] → ref.2 = .null → ref = (.extractionField, .null) := by
    intro entity s ref mem missing
    rw [List.mem_singleton.1 mem] at missing
    cases missing
  refine forall_rows nofun (fun _ => text) (fun _ => text) (fun _ _ _ => text) (fun _ _ _ => text)
    (fun _ _ _ => text) (fun _ _ _ _ _ => text) (fun _ _ _ _ _ => text) (fun _ _ _ => text) ?_
  intro f planned r mem ref refers missing
  rw [ExtractionField.references_toRow] at refers
  obtain rfl | rfl := List.mem_pair.1 refers
  · cases missing
  · rw [Prod.mk.injEq]
    exact ⟨rfl, missing⟩

/-! ## §4. Fields. -/

/-- Fields beside addresses are those of a forest in pre-order, each under the field of the
category above. -/
structure BelongTogether (cs : List Category) (entries : List (List Nat × ExtractionField)) :
    Prop where
  ascending : (entries.map (·.1)).Pairwise (· < ·)
  addressed : ∀ a, a ∈ entries.map (·.1) ↔ ∃ c, find? cs a = some c
  named : ∀ a r, (a, r) ∈ entries → ∃ c, find? cs a = some c ∧ r.name = c.name.text
  roots : ∀ k r, ([k], r) ∈ entries → r.parentId = none
  hanging : ∀ a k r, a ≠ [] → (a ++ [k], r) ∈ entries →
    ∃ above, (a, above) ∈ entries ∧ r.parentId = some above.id

/-- **A field belongs to the field of the category above**, whatever names they have. -/
theorem belongTogether_fields (by_ : Provision) (formId : String) (start : Nat)
    (cs : List Category) :
    BelongTogether cs ((located cs).map (Prod.map id (Plan.fieldOf by_ formId start))) := by
  have order := inPreorder_located cs
  have addresses : ((located cs).map (Prod.map id (Plan.fieldOf by_ formId start))).map (·.1) =
      (located cs).map (·.1) := by
    rw [List.map_map]
    rfl
  have entry : ∀ {a : List Nat} {r : ExtractionField},
      (a, r) ∈ (located cs).map (Prod.map id (Plan.fieldOf by_ formId start)) →
        ∃ d, (a, d) ∈ located cs ∧ r = Plan.fieldOf by_ formId start d := by
    intro a r mem
    obtain ⟨⟨b, d⟩, there, same⟩ := List.mem_map.1 mem
    cases same
    exact ⟨d, there, rfl⟩
  refine {
    ascending := addresses ▸ order.ascending
    addressed := addresses ▸ order.addressed
    named := ?_
    roots := ?_
    hanging := ?_ }
  · intro a r mem
    obtain ⟨d, there, rfl⟩ := entry mem
    obtain ⟨c, found, describes⟩ := order.described _ d there
    exact ⟨c, found, describes.name⟩
  · intro k r mem
    obtain ⟨d, there, rfl⟩ := entry mem
    show d.parentIndex.map _ = none
    rw [(order.roots k d there).1, Option.map_none]
  · intro a k r inside mem
    obtain ⟨d, there, rfl⟩ := entry mem
    obtain ⟨e, above, -, hangs⟩ := order.hanging a k d inside there
    refine ⟨Plan.fieldOf by_ formId start e, List.mem_map_of_mem above, ?_⟩
    show d.parentIndex.map _ = _
    rw [hangs.1, Option.map_some]
    rfl

/-! ## §5. The plan. -/

/-- A plan refers to nothing but its own rows, in the order in which they are written. -/
structure IsClosed (plan : InstallPlan) (p : ReviewProtocol) : Prop where
  /-- What a row refers to is written before it; only a field may have no parent. -/
  earlier : ∀ (i : Nat) (w : EntityType × Row), plan.rows[i]? = some w → ∀ ref ∈ w.1.references w.2,
    ref ≠ (.extractionField, .null) → ∃ j < i, plan.rows[j]?.map identify = some ref
  /-- Rows of the project, the template and the form are those of this plan, -/
  coherent : plan.IsCoherent
  /-- options are those of their questions, -/
  options : ∀ q rows, p.quality = some q → plan.quality = some rows →
    rows.options.length = rows.questions.length * q.responses.length ∧
      ∀ i j question, rows.questions[i]? = some question → j < q.responses.length →
        ∃ r, rows.options[i * q.responses.length + j]? = some r ∧ r.questionId = question.id
  /-- and fields are under the fields of the categories above. -/
  fields : ∃ entries, entries.map (·.2) = plan.fields ∧ BelongTogether p.categories entries
  filled : plan.fields ≠ [] ↔ plan.form.isSome = true
  formed : plan.form.isSome = true ↔ p.categories ≠ []
  distinct : plan.ids.Nodup

theorem isSome_form_iff : (of by_ p user).form.isSome = true ↔ p.categories ≠ [] := by
  unfold of ReviewProtocol.extractionEnabled
  cases p.categories <;> simp

theorem fields_ne_nil_iff : (of by_ p user).fields ≠ [] ↔ p.categories ≠ [] := by
  obtain ⟨formId, start, all⟩ := exists_fields_of by_ p user
  rw [all, Ne, List.map_eq_nil_iff, ← List.length_eq_zero_iff, length_flatten]
  cases p.categories with
  | nil => simp [nodeCounts]
  | cons c rest =>
    rw [nodeCounts, nodeCount_eq]
    simp

/-- **Every plan is closed under its own references.**  Whatever the protocol, and whoever
makes it, there is a plan; what its rows refer to are rows of the plan that are written
before them, and the right ones; and when no id is drawn twice, its rows have ids of their
own. -/
theorem build_isClosed (distinct : (by_.drawn 0 p.draws).Nodup) :
    ∃ plan, build by_ p user = .ok plan ∧ plan.IsClosed p := by
  refine ⟨of by_ p user, build_eq by_ p user, {
    earlier := ?_
    coherent := isCoherent_of
    options := ?_
    fields := ?_
    filled := fields_ne_nil_iff.trans isSome_form_iff.symm
    formed := isSome_form_iff
    distinct := ?_ }⟩
  · intro i w there ref refers given
    obtain missing | known | before := (grounded_rows isCoherent_of).earlier there refers
    · exact absurd (eq_parent_of_null w (List.mem_of_getElem? there) ref refers missing) given
    · cases known
    · exact before
  · intro q rows given planned
    obtain ⟨start, made⟩ := exists_quality_of by_ p user
    rw [made, given, Option.map_some] at planned
    cases planned
    refine ⟨?_, ?_⟩
    · rw [Plan.length_options, Plan.length_questions]
    · intro i j question asked inside
      exact ⟨_, Plan.getElem?_options asked (List.getElem?_eq_getElem inside), rfl⟩
  · obtain ⟨formId, start, all⟩ := exists_fields_of by_ p user
    refine ⟨_, ?_, belongTogether_fields by_ formId start p.categories⟩
    rw [all, List.map_map, ← map_snd_located, List.map_map]
    rfl
  · have texts : ((by_.drawn 0 p.draws).map Cell.text).Nodup :=
      distinct.map fun s t same => Cell.text.inj same
    exact ids_perm_drawn.nodup_iff.2 texts

/-- Two categories of one name, one below the other. -/
theorem build_isClosed_paired : (countingProvision.drawn 0 pairedProtocol.draws).Nodup ∧
    ∃ plan, build countingProvision pairedProtocol "ada" = .ok plan ∧
      plan.IsClosed pairedProtocol := by
  have distinct : (countingProvision.drawn 0 pairedProtocol.draws).Nodup := by decide +kernel
  exact ⟨distinct, build_isClosed distinct⟩

end InstallPlan

end LiteratureReview
