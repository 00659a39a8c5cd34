/-
  LiteratureReview.Proofs.Validation.Names
  ────────────────────────────────────────
  Looking names up sees no more of a document than its canonical form.

  The walks through categories and reports ask for texts and lists under
  declared keys, and pass over null as over absence.  Canonical forms keep
  just that: `textAt_canon`, `listAt_canon`, and with them one walk after the
  other, up to `findings_canon`.
-/
import LiteratureReview.Proofs.Protocol.Layout
import LiteratureReview.Proofs.Validation.References

namespace LiteratureReview.References

open Json Layout

variable {v : Json} {type : Section} {item : Slot} {key : String} {names : List String}
  {place : Pointer}

/-! ## §1. Looking into canonical forms. -/

theorem asText?_canon (slot : Slot) (w : Json) : (canon slot w).asText? = w.asText? := by
  cases w with
  | object members =>
    rw [canon, prune]
    split <;> rfl
  | list items =>
    rw [canon, prune]
    split <;> rfl
  | number n =>
    rw [canon, prune]
    split <;> rfl
  | null | bool b | text s => rfl

theorem asList?_canon (w : Json) :
    (canon (.list item) w).asList? = w.asList?.map (List.map (canon item)) := by
  cases w with
  | list items =>
    rw [canon_listOf]
    rfl
  | object members | number n | null | bool b | text s => rfl

/-- Under a declared key the same text is found. -/
theorem textAt_canon (proper : v.IsProper) {f : Field}
    (declared : fieldOf (type.fields v) key = some f) :
    textAt (canon (.record type) v) key = textAt v key := by
  rw [textAt, textAt, get?_canon_declared proper declared]
  cases v.get? key with
  | none => rfl
  | some w =>
    rw [Option.bind_some, Option.bind_some, Field.canon]
    split
    next dropped =>
      rw [(Field.drops_iff.1 dropped).2]
      rfl
    next => exact asText?_canon f.slot w

/-- Under a declared key for lists there is the list of canonical forms. -/
theorem listAt_canon (proper : v.IsProper) {f : Field}
    (declared : fieldOf (type.fields v) key = some f) (list : f.slot = .list item) :
    listAt (canon (.record type) v) key = (listAt v key).map (canon item) := by
  rw [listAt, listAt, get?_canon_declared proper declared]
  cases v.get? key with
  | none => rfl
  | some w =>
    rw [Option.bind_some, Option.bind_some, Field.canon]
    split
    next dropped =>
      rw [(Field.drops_iff.1 dropped).2]
      rfl
    next =>
      rw [list, Option.bind_some, asList?_canon]
      cases w.asList? <;> rfl

theorem isProper_of_mem_listAt (proper : v.IsProper) {c : Json} (mem : c ∈ listAt v key) :
    c.IsProper := by
  obtain ⟨items, found, mem⟩ := mem_listAt_iff.1 mem
  exact isProper_list_iff.1 (proper.get? found) c mem

theorem depth_lt_of_mem_listAt {c : Json} (mem : c ∈ listAt v key) : c.depth < v.depth := by
  obtain ⟨items, found, mem⟩ := mem_listAt_iff.1 mem
  exact Nat.lt_trans (depth_item_lt mem) (depth_get?_lt found)

/-! ## §2. The walks, one level at a time. -/

theorem namesOf_eq (v : Json) :
    namesOf v = (textAt v "name").toList ++ namesOfAll (listAt v "sub_categories") := by
  cases v with
  | object members =>
    rw [namesOf, namesBelow_eq]
    show _ = ((members.lookup "name").bind asText?).toList ++
      namesOfAll (((members.lookup "sub_categories").bind asList?).getD [])
    cases members.lookup "sub_categories" with
    | none => rfl
    | some w => cases w <;> rfl
  | _ => rfl

theorem namesOfAll_eq_flatMap (items : List Json) : namesOfAll items = items.flatMap namesOf := by
  induction items with
  | nil => rfl
  | cons v rest ih => rw [namesOfAll, ih, List.flatMap_cons]

theorem inCategory_eq (v : Json) :
    inCategory names place v = dependency names place v ++
      inCategories names (place ++ [.member "sub_categories"]) 0 (listAt v "sub_categories") := by
  cases v with
  | object members =>
    rw [inCategory, belowCategory_eq]
    show _ = _ ++ inCategories names _ 0
      (((members.lookup "sub_categories").bind asList?).getD [])
    cases members.lookup "sub_categories" with
    | none => rfl
    | some w => cases w <;> rfl
  | _ => rfl

/-! ## §3. The walks through canonical forms. -/

section Categories

variable (proper : v.IsProper)

include proper

theorem textAt_name_canon :
    textAt (canon (.record .category) v) "name" = textAt v "name" :=
  textAt_canon proper (fieldOf_common (f := need "name" .scalar) (by decide) v)

theorem children_canon :
    listAt (canon (.record .category) v) "sub_categories" =
      (listAt v "sub_categories").map (canon (.record .category)) :=
  listAt_canon proper
    (fieldOf_common (f := may "sub_categories" (.list (.record .category))) (by decide) v) rfl

theorem textAt_type_canon :
    textAt (canon (.record .category) v) "category_type" = textAt v "category_type" :=
  textAt_canon proper (fieldOf_common (f := need "category_type" .scalar) (by decide) v)

/-- What a category depends on is declared where the tags say that it depends on something. -/
theorem dependency_canon :
    dependency names place (canon (.record .category) v) = dependency names place v := by
  -- the second tag is declared of dynamic lists, and looked at in no others
  by_cases dynamic : textAt v "category_type" = some "DynamicList"
  · have tagged : Section.fields v .category =
        categoryFields (some "DynamicList") (textAt v "dynamic_subtype") :=
      congrArg (categoryFields · _) dynamic
    have subtype : textAt (canon (.record .category) v) "dynamic_subtype" =
        textAt v "dynamic_subtype" :=
      textAt_canon proper (f := need "dynamic_subtype" .scalar)
        (by rw [tagged]; rfl)
    have same : isDependent (canon (.record .category) v) = isDependent v := by
      rw [isDependent, isDependent, textAt_type_canon proper, subtype]
    rw [dependency, dependency, same]
    split
    next dependent =>
      have second : textAt v "dynamic_subtype" = some "Dependent" := by
        simpa [isDependent, dynamic] using dependent
      have target : textAt (canon (.record .category) v) "depends_on" = textAt v "depends_on" :=
        textAt_canon proper (f := need "depends_on" .scalar)
          (by rw [tagged, second]; rfl)
      rw [textAt_name_canon proper, target]
    next => rfl
  · have other : ∀ w, textAt w "category_type" = textAt v "category_type" →
        isDependent w = false := by
      intro w same
      simp [isDependent, same, dynamic]
    rw [dependency, dependency, other v rfl, other _ (textAt_type_canon proper)]
    rfl

end Categories

/-- **The same names are found**, by induction on depth. -/
theorem namesOf_canon (v : Json) (proper : v.IsProper) :
    namesOf (canon (.record .category) v) = namesOf v := by
  induction v using depth_induction with
  | step v ih =>
    rw [namesOf_eq, namesOf_eq v, textAt_name_canon proper, children_canon proper,
      namesOfAll_eq_flatMap, namesOfAll_eq_flatMap, List.flatMap_map]
    congr 1
    exact List.flatMap_congr fun c mem =>
      ih c (depth_lt_of_mem_listAt mem) (isProper_of_mem_listAt proper mem)

/-- Walks that agree on each of some categories agree on the list of them. -/
theorem inCategories_map {items : List Json} {f : Json → Json} {index : Nat}
    (each : ∀ c ∈ items, ∀ place, inCategory names place (f c) = inCategory names place c) :
    inCategories names place index (items.map f) = inCategories names place index items := by
  induction items generalizing index with
  | nil => rfl
  | cons c rest ih =>
    obtain ⟨first, later⟩ := List.forall_mem_cons.1 each
    rw [List.map_cons, inCategories, inCategories, first, ih later]

/-- **The same faults are found in a category**, by induction on depth. -/
theorem inCategory_canon (v : Json) (proper : v.IsProper) (place : Pointer) :
    inCategory names place (canon (.record .category) v) = inCategory names place v := by
  induction v using depth_induction generalizing place with
  | step v ih =>
    rw [inCategory_eq, inCategory_eq v, dependency_canon proper, children_canon proper,
      inCategories_map fun c mem place =>
        ih c (depth_lt_of_mem_listAt mem) (isProper_of_mem_listAt proper mem) place]

theorem inReport_canon (proper : v.IsProper) :
    inReport names place (canon (.record .report) v) = inReport names place v := by
  have text : ∀ key, (fieldOf (reportFields (textAt v "report_type")) key).isSome = true →
      textAt (canon (.record .report) v) key = textAt v key := by
    intro key declared
    obtain ⟨f, declared⟩ := Option.isSome_iff_exists.1 declared
    exact textAt_canon proper declared
  have always : ∀ type, (fieldOf (reportFields type) "report_type").isSome = true ∧
      (fieldOf (reportFields type) "name").isSome = true ∧
        (fieldOf (reportFields type) "value").isSome = true := by
    intro type
    unfold reportFields
    split <;> exact ⟨rfl, rfl, rfl⟩
  obtain ⟨tag, name, value⟩ := always (textAt v "report_type")
  have keys : targetKeys (canon (.record .report) v) = targetKeys v := by
    rw [targetKeys, targetKeys, text _ tag]
  rw [inReport, inReport, keys]
  refine List.flatMap_congr fun key mem => ?_
  -- the keys that are looked up are declared
  have declared : (fieldOf (reportFields (textAt v "report_type")) key).isSome = true := by
    rw [targetKeys] at mem
    split at mem
    next => rwa [List.mem_singleton.1 mem]
    next compared =>
      rcases List.mem_pair.1 mem with rfl | rfl
      · exact value
      · rw [compared]
        rfl
    next => cases mem
  rw [text key declared, text _ name]

/-! ## §4. Documents. -/

theorem mapIdx_map_congr {α β γ : Type} {f : α → β} {g : Nat → β → γ} {h : Nat → α → γ}
    {xs : List α} (same : ∀ i, ∀ x ∈ xs, g i (f x) = h i x) :
    (xs.map f).mapIdx g = xs.mapIdx h := by
  refine List.ext_getElem (by simp) fun i small _ => ?_
  simp only [List.getElem_mapIdx, List.getElem_map]
  exact same i _ (List.getElem_mem _)

theorem categories_canon (proper : v.IsProper) :
    listAt (canon (.record .document) v) "category" =
      (listAt v "category").map (canon (.record .category)) :=
  listAt_canon proper (f := need "category" (.list (.record .category))) rfl rfl

/-- **The walk through the categories of a document collects the same names from its canonical
form.** -/
theorem categoryNames_canon (proper : v.IsProper) :
    categoryNames (canon (.record .document) v) = categoryNames v := by
  rw [categoryNames, categoryNames, categories_canon proper, namesOfAll_eq_flatMap,
    namesOfAll_eq_flatMap, List.flatMap_map]
  exact List.flatMap_congr fun c mem => namesOf_canon c (isProper_of_mem_listAt proper mem)

/-- **Looking up names finds the same faults at the same places in a document and in its
canonical form.** -/
theorem findings_canon (proper : v.IsProper) :
    findings (canon (.record .document) v) = findings v := by
  have reports : listAt (canon (.record .document) v) "reporting" =
      (listAt v "reporting").map (canon (.record .report)) :=
    listAt_canon proper (f := may "reporting" (.list (.record .report))) rfl rfl
  simp only [findings]
  rw [categoryNames_canon proper, categories_canon proper, reports,
    inCategories_map fun c mem place =>
      inCategory_canon c (isProper_of_mem_listAt proper mem) place,
    mapIdx_map_congr fun i r mem => inReport_canon (isProper_of_mem_listAt proper mem)]

end LiteratureReview.References
