/-
  LiteratureReview.Proofs.Validation.Mentions
  ───────────────────────────────────────────
  Looking names up in a document is looking them up in its protocol.

  The pass over the document walks JSON by keys and tags.  Here the names
  that a protocol mentions are listed off its types, in the order of the
  document, each with its place (`ReviewProtocol.mentions`); a mention is at
  fault or not, and the pass finds the faults of the mentions, one by one
  (`findings_eq_faults`).  The pass sees no more than the canonical form of a
  document, and that is what is written of the protocol, so the two walks are
  compared on what is written.
-/
import LiteratureReview.Proofs.Protocol.WrittenBack
import LiteratureReview.Proofs.Validation.Names
import LiteratureReview.Proofs.Validation.Verdict

namespace LiteratureReview

open Json Layout References

theorem Identifier.text_inj {a b : Identifier} : a.text = b.text ↔ a = b := by
  obtain ⟨a, _⟩ := a
  obtain ⟨b, _⟩ := b
  simp

/-! ## §1. Mentions. -/

/-- A place where a category is named as the one that something is about. -/
inductive Mention where
  /-- A category depends on another one. -/
  | dependency (place : Pointer) (name target : Identifier)
  /-- A report is computed from a category. -/
  | reported (place : Pointer) (report : String) (target : Identifier)
  deriving DecidableEq, Repr

/-- Where the mention stands. -/
def Mention.place : Mention → Pointer
  | .dependency place _ _ => place
  | .reported place _ _ => place

/-- The name that is mentioned. -/
def Mention.target : Mention → Identifier
  | .dependency _ _ target => target
  | .reported _ _ target => target

/-- The mention is of another category among some names. -/
def Mention.Resolves (names : List Identifier) : Mention → Prop
  | .dependency _ name target => target ≠ name ∧ target ∈ names
  | .reported _ _ target => target ∈ names

/-- What is wrong with a mention, if anything. -/
def Mention.fault (names : List Identifier) : Mention → Option Finding
  | .dependency place name target =>
    if name = target then some ⟨place, .dependsOnItself target.text⟩
    else if target ∈ names then none
    else some ⟨place, .unknownDependency target.text⟩
  | .reported place report target =>
    if target ∈ names then none
    else some ⟨place, .unknownReportTarget report target.text⟩

theorem Mention.fault_eq_none_iff {names : List Identifier} {m : Mention} :
    m.fault names = none ↔ m.Resolves names := by
  cases m with
  | dependency place name target =>
    unfold fault Resolves
    by_cases self : name = target
    · simp [self]
    · by_cases known : target ∈ names <;> simp [self, Ne.symm self, known]
  | reported place report target =>
    unfold fault Resolves
    split <;> simp_all

namespace Category

/-- What a category depends on. -/
def dependsOn? : CategoryKind → Option Identifier
  | .dependent target => some target
  | .simple .. | .list _ | .independent _ _ => none

/-- What a category itself mentions. -/
def ownMentions (place : Pointer) (h : CategoryHead) (k : CategoryKind) : List Mention :=
  (dependsOn? k).toList.map (.dependency (place ++ [.member "depends_on"]) h.name)

mutual

/-- What a category mentions, and then what the categories below it do. -/
def mentions (place : Pointer) : Category → List Mention
  | .node h k (some children) =>
    ownMentions place h k ++ mentionsAll (place ++ [.member "sub_categories"]) 0 children
  | .node h k none => ownMentions place h k

/-- What some categories mention, counted from an index on. -/
def mentionsAll (place : Pointer) (index : Nat) : List Category → List Mention
  | [] => []
  | c :: rest => mentions (place ++ [.element index]) c ++ mentionsAll place (index + 1) rest

end

/-- One category is another, or stands somewhere below it. -/
inductive Occurs (c : Category) : Category → Prop where
  | here : Occurs c c
  | deeper {h : CategoryHead} {k : CategoryKind} {children : List Category} {d : Category}
      (child : d ∈ children) (lower : Occurs c d) : Occurs c (.node h k (some children))

end Category

/-- What a report mentions, the value first. -/
def Report.mentions (place : Pointer) (r : Report) : List Mention :=
  .reported (place ++ [.member "value"]) r.name r.value ::
    r.reference.toList.map (.reported (place ++ [.member "reference"]) r.name)

namespace ReviewProtocol

/-- What a protocol mentions, in the order of the document. -/
def mentions (p : ReviewProtocol) : List Mention :=
  Category.mentionsAll [.member "category"] 0 p.categories ++
    (p.reports.mapIdx fun i r => r.mentions [.member "reporting", .element i]).flatten

/-- A category of a protocol, on any level. -/
def HasCategory (p : ReviewProtocol) (c : Category) : Prop := ∃ top ∈ p.categories, c.Occurs top

/-- What is depended on and reported on are categories of the protocol, and no category
depends on itself. -/
structure ReferencesResolve (p : ReviewProtocol) : Prop where
  dependencies : ∀ c, p.HasCategory c → ∀ target, Category.dependsOn? c.kind = some target →
    target ≠ c.name ∧ target ∈ p.categoryNames
  reports : ∀ r ∈ p.reports, ∀ target ∈ r.referencedCategories, target ∈ p.categoryNames

end ReviewProtocol

/-! ## §2. Looking into what is written. -/

namespace References

variable {table : List (String × Option Json)} {key : String} {o : Option Json}

theorem textAt_written (distinct : (table.map (·.1)).Nodup) (found : table.lookup key = some o) :
    textAt (Json.object (given table)).normalize key = o.bind asText? := by
  rw [textAt, get?_written distinct found]
  cases o with
  | none => rfl
  | some v => cases v <;> rfl

/-- The list that is written under a key, or no list. -/
theorem listAt_written {α : Type} {write : α → Json} {items : Option (List α)}
    (distinct : (table.map (·.1)).Nodup)
    (found : table.lookup key = some (items.map (listOf write))) :
    listAt (Json.object (given table)).normalize key =
      (items.getD []).map fun a => (write a).normalize := by
  rw [listAt, get?_written distinct found]
  cases items with
  | none => rfl
  | some xs =>
    show normalizeItems (xs.map write) = _
    rw [normalizeItems_eq_map, List.map_map]
    rfl

end References

/-! ## §3. The walks through what is written. -/

namespace Category

variable {h : CategoryHead} {k : CategoryKind} {children : Option (List Category)}
  {names : List Identifier} {place : Pointer}

/-- What is looked for in a category is found in what is written of it. -/
theorem textAt_encode {key : String} {o : Option Json}
    (found : (tagTable k ++ table h k children).lookup key = some o) :
    textAt (encode (.node h k children)).normalize key = o.bind asText? := by
  rw [encode_eq]
  exact textAt_written (distinct h k children) found

theorem textAt_text {key s : String}
    (found : (tagTable k ++ table h k children).lookup key = some (some (.text s))) :
    textAt (encode (.node h k children)).normalize key = some s :=
  textAt_encode found

theorem textAt_name :
    textAt (encode (.node h k children)).normalize "name" = some h.name.text := by
  refine textAt_text ?_
  cases k <;> rfl

theorem listAt_children :
    listAt (encode (.node h k children)).normalize "sub_categories" =
      (children.getD []).map fun c => c.encode.normalize := by
  rw [encode_eq]
  refine listAt_written (distinct h k children) ?_
  cases k <;> rfl

mutual

/-- **The names found in what is written of a category are its names.** -/
theorem namesOf_encode : (c : Category) →
    References.namesOf c.encode.normalize = c.names.map (·.text)
  | .node h k none => by
    rw [namesOf_eq, textAt_name, listAt_children]
    rfl
  | .node h k (some children) => by
    rw [namesOf_eq, textAt_name, listAt_children]
    show h.name.text :: namesOfAll (children.map fun c => c.encode.normalize) = _
    rw [namesOfAll_encode children]
    rfl

theorem namesOfAll_encode : (cs : List Category) →
    namesOfAll (cs.map fun c => c.encode.normalize) = (Category.namesOf cs).map (·.text)
  | [] => rfl
  | c :: rest => by
    rw [List.map_cons, namesOfAll, namesOf_encode c, namesOfAll_encode rest, Category.namesOf,
      List.map_append]

end

/-- Among texts of names a name is found by its text. -/
theorem contains_text (target : Identifier) :
    (names.map (·.text)).contains target.text = decide (target ∈ names) := by
  rw [Bool.eq_iff_iff, List.contains_iff_mem, List.mem_map, decide_eq_true_iff]
  constructor
  · rintro ⟨name, mem, same⟩
    rwa [← Identifier.text_inj.1 same]
  · exact fun mem => ⟨target, mem, rfl⟩

/-- The fault of a category itself. -/
theorem dependency_encode :
    dependency (names.map (·.text)) place (encode (.node h k children)).normalize =
      (ownMentions place h k).filterMap (Mention.fault names) := by
  -- only of one kind both tags are written
  cases k with
  | dependent target =>
    have type : textAt (encode (.node h (.dependent target) children)).normalize "category_type" =
        some "DynamicList" := textAt_text rfl
    have subtype : textAt (encode (.node h (.dependent target) children)).normalize
        "dynamic_subtype" = some "Dependent" := textAt_text rfl
    have depends : textAt (encode (.node h (.dependent target) children)).normalize "depends_on" =
        some target.text := textAt_text rfl
    have dependent : isDependent (encode (.node h (.dependent target) children)).normalize =
        true := by
      rw [isDependent, type, subtype]
      rfl
    rw [dependency, if_pos dependent, depends, textAt_name]
    show (if some h.name.text = some target.text then _ else _) =
      [Mention.dependency _ h.name target].filterMap (Mention.fault names)
    simp only [Option.some.injEq, Identifier.text_inj, contains_text, decide_eq_true_iff]
    by_cases self : h.name = target
    · simp [Mention.fault, self]
    · by_cases known : target ∈ names <;> simp [Mention.fault, self, known]
  | independent referenceName values =>
    have type : textAt (encode (.node h (.independent referenceName values) children)).normalize
        "dynamic_subtype" = some "Independent" := textAt_text rfl
    rw [dependency, if_neg (by simp [isDependent, type])]
    rfl
  | list values =>
    have type : textAt (encode (.node h (.list values) children)).normalize "category_type" =
        some "List" := textAt_text rfl
    rw [dependency, if_neg (by simp [isDependent, type])]
    rfl
  | simple type maxChar pattern initialValue =>
    have type :
        textAt (encode (.node h (.simple type maxChar pattern initialValue) children)).normalize
          "category_type" = some "Simple" := textAt_text rfl
    rw [dependency, if_neg (by simp [isDependent, type])]
    rfl

mutual

/-- **The faults found in what is written of a category are those of its mentions.** -/
theorem inCategory_encode (names : List Identifier) : (c : Category) → (place : Pointer) →
    inCategory (names.map (·.text)) place c.encode.normalize =
      (c.mentions place).filterMap (Mention.fault names)
  | .node h k none, place => by
    rw [inCategory_eq, dependency_encode, listAt_children, mentions]
    exact List.append_nil _
  | .node h k (some children), place => by
    rw [inCategory_eq, dependency_encode, listAt_children, mentions, List.filterMap_append]
    congr 1
    exact inCategories_encode names children _ 0

theorem inCategories_encode (names : List Identifier) : (cs : List Category) →
    (place : Pointer) → (index : Nat) →
      inCategories (names.map (·.text)) place index (cs.map fun c => c.encode.normalize) =
        (mentionsAll place index cs).filterMap (Mention.fault names)
  | [], _, _ => rfl
  | c :: rest, place, index => by
    rw [List.map_cons, inCategories, inCategory_encode names c, inCategories_encode names rest,
      mentionsAll, List.filterMap_append]

end

end Category

/-- The faults in a report whose targets are known, one after the other. -/
theorem inReport_of_targets {report : Json} {names : List Identifier} {place : Pointer}
    {name : String} (named : textAt report "name" = some name)
    {targets : List (String × Identifier)} (keys : targetKeys report = targets.map (·.1))
    (found : ∀ t ∈ targets, textAt report t.1 = some t.2.text) :
    inReport (names.map (·.text)) place report =
      (targets.map fun t => Mention.reported (place ++ [.member t.1]) name t.2).filterMap
        (Mention.fault names) := by
  rw [inReport, keys, List.flatMap_map, List.filterMap_map, List.filterMap_eq_flatMap_toList]
  refine List.flatMap_congr fun t mem => ?_
  rw [found t mem, named]
  simp only [Category.contains_text, decide_eq_true_iff]
  by_cases known : t.2 ∈ names <;> simp [Mention.fault, known]

/-- The faults found in what is written of a report are those of its mentions. -/
theorem Report.inReport_encode (names : List Identifier) (place : Pointer) (r : Report) :
    inReport (names.map (·.text)) place r.encode.normalize =
      (r.mentions place).filterMap (Mention.fault names) := by
  have text : ∀ {key : String} {o : Option Json}, r.tagged.lookup key = some o →
      textAt r.encode.normalize key = o.bind asText? := by
    intro key o found
    rw [r.encode_eq]
    exact textAt_written r.tagged_distinct found
  have tag : textAt r.encode.normalize "report_type" = some r.variant :=
    text (o := some (.text r.variant)) rfl
  have name : textAt r.encode.normalize "name" = some r.name :=
    text (o := some (.text r.name)) rfl
  have value : textAt r.encode.normalize "value" = some r.value.text :=
    text (o := some r.value.encode) rfl
  have reference : textAt r.encode.normalize "reference" =
      (r.reference.map Identifier.encode).bind asText? := text rfl
  -- the tag that is written says whether there is a reference
  have keys : targetKeys r.encode.normalize =
      (("value", r.value) :: r.reference.toList.map fun t => ("reference", t)).map (·.1) := by
    rw [targetKeys, tag, variant]
    cases r.reference <;> rfl
  have found : ∀ t ∈ ("value", r.value) :: r.reference.toList.map fun t => ("reference", t),
      textAt r.encode.normalize t.1 = some t.2.text := by
    refine List.forall_mem_cons.2 ⟨value, fun t mem => ?_⟩
    obtain ⟨target, there, rfl⟩ := List.mem_map.1 mem
    rw [reference, Option.mem_toList.1 there]
    rfl
  rw [inReport_of_targets name keys found, List.map_cons, List.map_map]
  rfl

/-! ## §4. Documents. -/

namespace ReviewProtocol

variable {p : ReviewProtocol} {v : Json}

theorem categories_encode (p : ReviewProtocol) :
    listAt p.encode.normalize "category" = p.categories.map fun c => c.encode.normalize := by
  have given : p.table.lookup "category" =
      some ((some p.categories).map (listOf Category.encode)) := rfl
  rw [p.encode_eq]
  exact listAt_written p.distinct given

/-- **The names found in what is written of a protocol are its names.** -/
theorem categoryNames_encode (p : ReviewProtocol) :
    References.categoryNames p.encode.normalize = p.categoryNames.map (·.text) := by
  rw [References.categoryNames, categories_encode, Category.namesOfAll_encode]
  rfl

/-- **The faults found in what is written of a protocol are those of its mentions.** -/
theorem findings_encode (p : ReviewProtocol) :
    findings p.encode.normalize = p.mentions.filterMap (Mention.fault p.categoryNames) := by
  have reports : listAt p.encode.normalize "reporting" =
      p.reports.map fun r => r.encode.normalize := by
    rw [p.encode_eq]
    exact listAt_written p.distinct rfl
  simp only [findings]
  rw [categoryNames_encode, categories_encode, reports, Category.inCategories_encode, mentions,
    List.filterMap_append, List.filterMap_flatten,
    mapIdx_map_congr fun i r _ =>
      r.inReport_encode p.categoryNames [.member "reporting", .element i]]
  congr 2
  exact List.ext_getElem (by simp) (by simp)

end ReviewProtocol

/-! ## §5. When there are no faults. -/

namespace Category

variable {names : List Identifier}

/-- What the category depends on is another one among some names. -/
def DependencyResolves (names : List Identifier) (c : Category) : Prop :=
  ∀ target, dependsOn? c.kind = some target → target ≠ c.name ∧ target ∈ names

theorem resolves_ownMentions_iff {h : CategoryHead} {k : CategoryKind}
    (children : Option (List Category)) {place : Pointer} :
    (∀ m ∈ ownMentions place h k, m.Resolves names) ↔
      DependencyResolves names (.node h k children) := by
  simp only [ownMentions, List.mem_map, Option.mem_toList, forall_exists_index, and_imp,
    forall_apply_eq_imp_iff₂]
  rfl

theorem occurs_iff {c : Category} {h : CategoryHead} {k : CategoryKind}
    {children : Option (List Category)} :
    c.Occurs (.node h k children) ↔
      c = .node h k children ∨ ∃ cs, children = some cs ∧ ∃ d ∈ cs, c.Occurs d := by
  constructor
  · intro occurs
    cases occurs with
    | here => exact .inl rfl
    | deeper child lower => exact .inr ⟨_, rfl, _, child, lower⟩
  · rintro (rfl | ⟨cs, rfl, d, child, lower⟩)
    · exact .here
    · exact .deeper child lower

mutual

/-- **The mentions of a tree resolve when every category in it does.** -/
theorem resolves_mentions_iff : (c : Category) → (place : Pointer) →
    ((∀ m ∈ c.mentions place, m.Resolves names) ↔ ∀ d, d.Occurs c → DependencyResolves names d)
  | .node h k none, place => by
    rw [mentions, resolves_ownMentions_iff none]
    simp [occurs_iff]
  | .node h k (some children), place => by
    rw [mentions, List.forall_mem_append, resolves_ownMentions_iff (some children),
      resolves_mentionsAll_iff children]
    simp [occurs_iff, or_imp, forall_and]

theorem resolves_mentionsAll_iff : (cs : List Category) → (place : Pointer) → (index : Nat) →
    ((∀ m ∈ mentionsAll place index cs, m.Resolves names) ↔
      ∀ d, (∃ top ∈ cs, d.Occurs top) → DependencyResolves names d)
  | [], _, _ => by simp [mentionsAll]
  | c :: rest, place, index => by
    rw [mentionsAll, List.forall_mem_append, resolves_mentions_iff c,
      resolves_mentionsAll_iff rest]
    simp [or_imp, forall_and]

end

end Category

theorem Report.resolves_mentions_iff {names : List Identifier} (r : Report) (place : Pointer) :
    (∀ m ∈ r.mentions place, m.Resolves names) ↔
      ∀ target ∈ r.referencedCategories, target ∈ names := by
  simp [mentions, referencedCategories, Mention.Resolves]

namespace ReviewProtocol

variable {p : ReviewProtocol} {v : Json}

/-- No mention is at fault exactly when the references resolve. -/
theorem faults_eq_nil_iff (p : ReviewProtocol) :
    p.mentions.filterMap (Mention.fault p.categoryNames) = [] ↔ p.ReferencesResolve := by
  have reports : (∀ m ∈ (p.reports.mapIdx fun i r =>
      r.mentions [.member "reporting", .element i]).flatten, m.Resolves p.categoryNames) ↔
        ∀ r ∈ p.reports, ∀ target ∈ r.referencedCategories, target ∈ p.categoryNames := by
    constructor
    · intro all r mem
      obtain ⟨i, small, rfl⟩ := List.getElem_of_mem mem
      refine (Report.resolves_mentions_iff _ [.member "reporting", .element i]).1
        fun m inside => all m ?_
      exact List.mem_flatten.2 ⟨_, List.mem_mapIdx.2 ⟨i, small, rfl⟩, inside⟩
    · intro all m mem
      obtain ⟨ms, there, inside⟩ := List.mem_flatten.1 mem
      obtain ⟨i, small, rfl⟩ := List.mem_mapIdx.1 there
      exact (Report.resolves_mentions_iff _ _).2 (all _ (List.getElem_mem small)) m inside
  rw [List.filterMap_eq_nil_iff]
  simp only [Mention.fault_eq_none_iff]
  rw [mentions, List.forall_mem_append, Category.resolves_mentionsAll_iff, reports]
  exact ⟨fun ⟨categories, reports⟩ => ⟨categories, reports⟩,
    fun ⟨categories, reports⟩ => ⟨categories, reports⟩⟩

end ReviewProtocol

/-! ## §6. Where mentions stand. -/

namespace Layout

/-- One step into a sorted value is one step into the value. -/
theorem step?_of_normalize {v w' : Json} {step : Step} (proper : v.IsProper)
    (found : v.normalize.step? step = some w') :
    ∃ w, v.step? step = some w ∧ w.IsProper ∧ w' = w.normalize := by
  cases step with
  | member key =>
    rw [step?, get?_normalize proper] at found
    obtain ⟨w, there, rfl⟩ := Option.map_eq_some_iff.1 found
    exact ⟨w, there, proper.get? there, rfl⟩
  | element i =>
    cases v with
    | list items =>
      rw [Json.normalize, normalizeItems_eq_map, step?, List.getElem?_map] at found
      obtain ⟨w, there, rfl⟩ := Option.map_eq_some_iff.1 found
      exact ⟨w, there, isProper_list_iff.1 proper w (List.mem_of_getElem? there), rfl⟩
    | _ => cases found

/-- One step into a canonical form is one step into the value. -/
theorem step?_of_canon {slot : Slot} {v w' : Json} {step : Step} (proper : v.IsProper)
    (found : (canon slot v).step? step = some w') :
    ∃ inner w, v.step? step = some w ∧ w.IsProper ∧ w' = canon inner w := by
  by_cases payload : slot = .payload
  -- a payload has payloads inside
  · subst payload
    rw [canon_payload] at found
    obtain ⟨w, there, inside, rfl⟩ := step?_of_normalize proper found
    exact ⟨.payload, w, there, inside, (canon_payload w).symm⟩
  · cases step with
    | member key =>
      rw [step?, get?_canon proper payload] at found
      obtain ⟨f, -, found⟩ := Option.bind_eq_some_iff.1 found
      obtain ⟨w, there, kept⟩ := Option.bind_eq_some_iff.1 found
      rw [Field.canon] at kept
      split at kept
      · cases kept
      · exact ⟨f.slot, w, there, proper.get? there, (Option.some.inj kept).symm⟩
    | element i =>
      cases v with
      | list items =>
        rw [canon_list payload, step?, List.getElem?_map] at found
        obtain ⟨w, there, rfl⟩ := Option.map_eq_some_iff.1 found
        exact ⟨slot.item, w, there, isProper_list_iff.1 proper w (List.mem_of_getElem? there), rfl⟩
      | number n =>
        rw [canon, prune] at found
        split at found <;> cases found
      | object members =>
        rw [canon, prune] at found
        split at found <;> cases found
      | null | bool b | text s => cases found

/-- A text in a canonical form stands at the same place of the value. -/
theorem at?_of_canon {slot : Slot} {v : Json} {q : Pointer} {s : String} (proper : v.IsProper)
    (found : (canon slot v).at? q = some (.text s)) : v.at? q = some (.text s) := by
  induction q generalizing v slot with
  | nil =>
    have same := asText?_canon slot v
    rw [Option.some.inj found] at same
    cases v with
    | text t => exact found
    | _ => cases same
  | cons step q ih =>
    obtain ⟨w', first, rest⟩ := Option.bind_eq_some_iff.1 found
    obtain ⟨inner, w, there, part, rfl⟩ := step?_of_canon proper first
    rw [Json.at?, there, Option.bind_some]
    exact ih part rest

end Layout

/-- A mention stands at or below a place, where its target is in the value. -/
def Mention.StandsIn (m : Mention) (place : Pointer) (v : Json) : Prop :=
  ∃ rest, m.place = place ++ rest ∧ v.at? rest = some (.text m.target.text)

theorem Mention.StandsIn.inside {m : Mention} {place : Pointer} {s : Step} {v w : Json}
    (step : v.step? s = some w) (h : m.StandsIn (place ++ [s]) w) : m.StandsIn place v := by
  obtain ⟨rest, same, stands⟩ := h
  refine ⟨s :: rest, ?_, ?_⟩
  · rw [same, List.append_assoc, List.singleton_append]
  · rw [Json.at?, step, Option.bind_some, stands]

namespace Category

variable {m : Mention}

theorem standsIn_ownMentions {place : Pointer} {h : CategoryHead} {k : CategoryKind}
    {children : Option (List Category)} (mem : m ∈ ownMentions place h k) :
    m.StandsIn place (encode (.node h k children)).normalize := by
  cases k with
  | dependent target =>
    obtain rfl := List.mem_singleton.1 mem
    have depends : (encode (.node h (.dependent target) children)).normalize.get? "depends_on" =
        some (.text target.text) := by
      rw [encode_eq]
      exact get?_written (distinct h _ children) (o := some target.encode) rfl
    refine ⟨[.member "depends_on"], rfl, ?_⟩
    rw [Json.at?, step?, depends]
    rfl
  | _ => cases mem

mutual

/-- **The mentions of a category stand in what is written of it.** -/
theorem standsIn_mentions : (c : Category) → (place : Pointer) → m ∈ c.mentions place →
    m.StandsIn place c.encode.normalize
  | .node h k none, place, mem => standsIn_ownMentions mem
  | .node h k (some children), place, mem => by
    rcases List.mem_append.1 mem with own | below
    · exact standsIn_ownMentions own
    · have listed : (encode (.node h k (some children))).normalize.get? "sub_categories" =
          some (listOf encode children).normalize := by
        rw [encode_eq]
        refine get?_written (distinct h k _) (o := some (listOf encode children)) ?_
        cases k <;> rfl
      refine Mention.StandsIn.inside (s := .member "sub_categories") listed ?_
      rw [listOf, Json.normalize, normalizeItems_eq_map, List.map_map]
      exact standsIn_mentionsAll children _ [] below

/-- Categories that come behind some values in a list. -/
theorem standsIn_mentionsAll : (cs : List Category) → (place : Pointer) → (front : List Json) →
    m ∈ mentionsAll place front.length cs →
      m.StandsIn place (.list (front ++ cs.map (Json.normalize ∘ encode)))
  | [], _, _, mem => nomatch mem
  | c :: rest, place, front, mem => by
    rcases List.mem_append.1 mem with first | later
    -- the category stands right behind those in front
    · have here :
          (front ++ c.encode.normalize :: rest.map (Json.normalize ∘ encode))[front.length]? =
            some c.encode.normalize := by
        rw [List.getElem?_append_right (Nat.le_refl _), Nat.sub_self]
        rfl
      exact (standsIn_mentions c _ first).inside (s := .element front.length) here
    · have step := standsIn_mentionsAll rest place (front ++ [c.encode.normalize])
        (by rwa [List.length_append])
      rwa [List.append_assoc] at step

end

end Category

theorem Report.standsIn_mentions {m : Mention} (r : Report) {place : Pointer}
    (mem : m ∈ r.mentions place) : m.StandsIn place r.encode.normalize := by
  have at? : ∀ {key : String} {target : Identifier},
      r.tagged.lookup key = some (some (.text target.text)) →
        r.encode.normalize.at? [.member key] = some (.text target.text) := by
    intro key target found
    have there : r.encode.normalize.get? key = some (.text target.text) := by
      rw [r.encode_eq]
      exact get?_written r.tagged_distinct found
    rw [Json.at?, step?, there]
    rfl
  rcases List.mem_cons.1 mem with rfl | mem
  · exact ⟨[.member "value"], rfl, at? rfl⟩
  · obtain ⟨target, compared, rfl⟩ := List.mem_map.1 mem
    refine ⟨[.member "reference"], rfl, at? ?_⟩
    show some (r.reference.map Identifier.encode) = _
    rw [Option.mem_toList.1 compared]
    rfl

namespace ReviewProtocol

variable {p : ReviewProtocol} {v : Json}

/-- The mentions of a protocol stand in what is written of it. -/
theorem standsIn_mentions {m : Mention} (mem : m ∈ p.mentions) :
    m.StandsIn [] p.encode.normalize := by
  have written : ∀ (key : String) {o : Option Json}, p.table.lookup key = some o →
      p.encode.normalize.get? key = o.map Json.normalize := by
    intro key o found
    rw [p.encode_eq]
    exact get?_written p.distinct found
  rcases List.mem_append.1 mem with category | report
  · have listed := written "category" rfl
    rw [Option.map_some, listOf, Json.normalize, normalizeItems_eq_map, List.map_map] at listed
    exact (Category.standsIn_mentionsAll p.categories _ [] category).inside
      (s := .member "category") listed
  · obtain ⟨ms, there, inside⟩ := List.mem_flatten.1 report
    obtain ⟨i, small, rfl⟩ := List.mem_mapIdx.1 there
    have stands := p.reports[i].standsIn_mentions inside
    cases given : p.reporting with
    | none => simp [reports, given] at small
    | some rs =>
      have same : p.reports = rs := by rw [reports, given, Option.getD_some]
      have listed := written "reporting" rfl
      rw [given, Option.map_some, Option.map_some, listOf, Json.normalize, normalizeItems_eq_map,
        List.map_map] at listed
      have element : (Json.list (rs.map (Json.normalize ∘ Report.encode))).step? (.element i) =
          some p.reports[i].encode.normalize := by
        simp [step?, same ▸ small, same]
      have inner : m.StandsIn [.member "reporting"] _ := stands.inside element
      exact inner.inside (s := .member "reporting") listed

/-- **Looking names up in a document finds the faults of what its protocol mentions**, one
for each mention that is at fault, in the order of the document and where the name stands;
and it finds none exactly when the references of the protocol resolve. -/
theorem findings_eq_faults (proper : v.IsProper) (clean : Validator.grammarErrors v = [])
    (read : decode .free v = .ok p) :
    findings v = p.mentions.filterMap (Mention.fault p.categoryNames) ∧
      (∀ m ∈ p.mentions, v.at? m.place = some (.text m.target.text)) ∧
        (findings v = [] ↔ p.ReferencesResolve) := by
  have written : canon (.record .document) v = p.encode.normalize :=
    canon_of_decode proper (Validator.grammarErrors_eq_nil_iff.1 clean) read
  have faults : findings v = p.mentions.filterMap (Mention.fault p.categoryNames) := by
    rw [← findings_canon proper, written, findings_encode]
  refine ⟨faults, fun m mem => ?_, by rw [faults, faults_eq_nil_iff]⟩
  obtain ⟨rest, place, stands⟩ := standsIn_mentions mem
  rw [List.nil_append] at place
  rw [place]
  exact at?_of_canon proper (written ▸ stands)

/-- A category that depends on itself, one below it that depends on nothing there is, and a
report on the first of them against a category that is missing. -/
def entangledDocument : Json :=
  .object
    [("category", .list [.object
      [("category_type", .text "DynamicList"), ("depends_on", .text "city"),
       ("dynamic_subtype", .text "Dependent"), ("mandatory", .bool true), ("name", .text "city"),
       ("sub_categories", .list [.object
         [("category_type", .text "DynamicList"), ("depends_on", .text "country"),
          ("dynamic_subtype", .text "Dependent"), ("mandatory", .bool true),
          ("name", .text "street")]])]]),
     ("project", .object [("name", .text "A review"), ("short_name", .text "Review")]),
     ("reporting", .list [.object
       [("chart", .list [.text "bar"]), ("name", .text "Cities"), ("reference", .text "year"),
        ("report_type", .text "Compared"), ("value", .text "city")]])]

theorem findings_entangledDocument :
    ∃ p, decode .free entangledDocument = .ok p ∧ ¬p.ReferencesResolve ∧
      p.mentions.length = 4 ∧ p.mentions.filterMap (Mention.fault p.categoryNames) =
        [⟨[.member "category", .element 0, .member "depends_on"], .dependsOnItself "city"⟩,
         ⟨[.member "category", .element 0, .member "sub_categories", .element 0,
            .member "depends_on"], .unknownDependency "country"⟩,
         ⟨[.member "reporting", .element 0, .member "reference"],
          .unknownReportTarget "Cities" "year"⟩] := by
  have clean : Validator.grammarErrors entangledDocument = [] := by
    rw [Validator.grammarErrors, ProtocolGrammar.grammar_eq]
    decide +kernel
  obtain ⟨p, read, length⟩ : ∃ p, decode .free entangledDocument = .ok p ∧ p.mentions.length = 4 :=
    ⟨_, rfl, rfl⟩
  obtain ⟨faults, -, resolve⟩ := findings_eq_faults (by decide) clean read
  have found : findings entangledDocument ≠ [] := by decide +kernel
  exact ⟨p, read, mt resolve.2 found, length, faults ▸ (by decide +kernel)⟩

end ReviewProtocol

end LiteratureReview
