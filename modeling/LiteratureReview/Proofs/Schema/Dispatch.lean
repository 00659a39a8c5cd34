/-
  LiteratureReview.Proofs.Schema.Dispatch
  ───────────────────────────────────────
  What a tagged union finds in a value.

  A union puts a condition on the tag in front of each of its contents, so
  the content that the tag names is the only one that says anything
  (`violations_of_tag`).  A tag that names none, or is not there, is the only
  violation (`violations_of_unknown_tag`, `violations_of_missing_tag`).  On
  what is no object every condition holds, and every content complains of the
  same (`violations_of_not_object`).
-/
import LiteratureReview.Proofs.Schema.Below

namespace LiteratureReview

open Json Grammar

namespace Schema

variable {resolve : Resolver} {tag variant content name : String} {p : Pointer} {v : Json}
variable {variants : List (String × String)}

/-! ## §1. Parts of a union. -/

/-- The condition on the tag holds where the tag names the variant, and of what has no tags. -/
theorem isEmpty_tagIs_iff :
    (violations resolve (tagIs tag variant) p v).isEmpty = true ↔
      ¬IsObject v ∨ v.get? tag = some (.text variant) := by
  have parts : violations resolve (tagIs tag variant) p v =
      violationsOfMembers resolve [(tag, .all [.constant (.text variant)])] p v ++
        ((missingKeys [tag] v).map fun k => ⟨p, v, .missing k⟩) := by
    simp [tagIs, violations, violationsAll]
  rw [parts, isEmpty_append, Bool.and_eq_true]
  cases found : v.get? tag with
  | none =>
    cases v with
    | object members =>
      have absent : members.lookup tag = none := found
      simp [missingKeys, absent, IsObject]
    | _ => simp [violationsOfMembers, get?, missingKeys, IsObject]
  | some w =>
    obtain ⟨members, rfl⟩ := isObject_of_get? found
    have there : members.lookup tag = some w := found
    have object : IsObject (.object members) := ⟨members, rfl⟩
    rw [violationsOfMembers_single found]
    simp [violations, violationsAll, isEmpty_demand, same_text_iff, missingKeys, there, object]

/-- A case speaks of what has its tag. -/
theorem violations_caseOf_of_tag (found : v.get? tag = some (.text variant)) :
    violations resolve (caseOf tag variant content) p v = resolve content p v := by
  obtain ⟨members, rfl⟩ := isObject_of_get? found
  have there : members.lookup tag = some (.text variant) := found
  have test : (violations resolve (tagIs tag variant) p (.object members)).isEmpty = true :=
    isEmpty_tagIs_iff.2 (.inr found)
  have self : (Json.text variant).same (.text variant) = true := same_text_iff.2 rfl
  rw [caseOf, violations, violationsAll, violationsAll, List.append_nil, violations, if_pos test]
  simp [violations, violationsAll, violationsOfMembers, found, demand, self, ValueType.holds,
    missingKeys, there]

/-- A case is silent about objects with another tag, or none. -/
theorem violations_caseOf_of_other (object : IsObject v)
    (other : v.get? tag ≠ some (.text variant)) :
    violations resolve (caseOf tag variant content) p v = [] := by
  have test : ¬(violations resolve (tagIs tag variant) p v).isEmpty = true := by
    rw [isEmpty_tagIs_iff, not_or, not_not]
    exact ⟨object, other⟩
  rw [caseOf, violations, violationsAll, violationsAll, List.append_nil, violations, if_neg test]
  rfl

/-- A case speaks of what is no object. -/
theorem mem_violations_caseOf_of_not_object (plain : ¬IsObject v) {x : Violation}
    (mem : x ∈ violations resolve (caseOf tag variant content) p v) :
    x ∈ resolve content p v ∨ x = ⟨p, v, .type [.object]⟩ := by
  have test : (violations resolve (tagIs tag variant) p v).isEmpty = true :=
    isEmpty_tagIs_iff.2 (.inl plain)
  rw [caseOf, violations, violationsAll, violationsAll, List.append_nil, violations, if_pos test]
    at mem
  cases v with
  | object members => exact absurd ⟨members, rfl⟩ plain
  | _ =>
    simpa [violations, violationsAll, violationsOfMembers, get?, demand, ValueType.holds,
      missingKeys] using mem

theorem violationsAll_eq_flatMap (parts : List Schema) :
    violationsAll resolve parts p v = parts.flatMap fun s => violations resolve s p v := by
  induction parts with
  | nil => rfl
  | cons s rest ih => rw [violationsAll, ih, List.flatMap_cons]

/-- The tag, where it is a text, is one of the names. -/
theorem violations_oneOfTexts_text (names : List String) :
    violations resolve (oneOfTexts names) p (.text name) =
      if name ∈ names then [] else [⟨p, .text name, .enumeration (names.map .text)⟩] := by
  have listed : ((names.map Json.text).any (Json.text name).same) = decide (name ∈ names) := by
    rw [Bool.eq_iff_iff, List.any_eq_true, decide_eq_true_eq]
    constructor
    · rintro ⟨w, mem, same⟩
      obtain ⟨other, listed, rfl⟩ := List.mem_map.1 mem
      cases same_text_iff.1 same
      exact listed
    · exact fun mem => ⟨.text name, List.mem_map_of_mem mem, same_text_iff.2 rfl⟩
  rw [oneOfTexts, violations, violationsAll, violations, listed]
  by_cases mem : name ∈ names <;>
    simp [mem, demand, violationsAll, violations, ValueType.holds]

/-! ## §2. Unions. -/

/-- A union consists of its cases, of what it says of the tag, and of what it says of the value
itself. -/
theorem violations_taggedUnion :
    violations resolve (taggedUnion tag variants) p v =
      (variants.flatMap fun c => violations resolve (caseOf tag c.1 c.2) p v) ++
        (violationsOfMembers resolve [(tag, oneOfTexts (variants.map (·.1)))] p v ++
          (((missingKeys [tag] v).map fun k => ⟨p, v, .missing k⟩) ++
            demand (ValueType.object.holds v) p v (.type [.object]))) := by
  rw [taggedUnion, violations, violationsAll, violations, violationsAll_eq_flatMap,
    List.flatMap_map]
  simp [violationsAll, violations]

/-- The cases of a union are silent about an object whose tag is none of theirs. -/
theorem violations_cases_of_other (object : IsObject v)
    (other : ∀ c ∈ variants, v.get? tag ≠ some (.text c.1)) :
    (variants.flatMap fun c => violations resolve (caseOf tag c.1 c.2) p v) = [] :=
  List.flatMap_eq_nil_iff.2 fun c mem => violations_caseOf_of_other object (other c mem)

theorem tag_ne_of_unknown (found : v.get? tag = some (.text name))
    (unknown : name ∉ variants.map (·.1)) : ∀ c ∈ variants, v.get? tag ≠ some (.text c.1) := by
  intro c mem same
  rw [found] at same
  cases same
  exact unknown (List.mem_map_of_mem mem)

/-- Of the cases of a union the one that the tag names speaks, by induction on the variants. -/
theorem violations_cases_of_tag (distinct : (variants.map (·.1)).Nodup)
    (listed : (name, content) ∈ variants) (found : v.get? tag = some (.text name)) :
    (variants.flatMap fun c => violations resolve (caseOf tag c.1 c.2) p v) =
      resolve content p v := by
  have object := isObject_of_get? found
  induction variants with
  | nil => cases listed
  | cons c rest ih =>
    rw [List.map_cons, List.nodup_cons] at distinct
    rw [List.flatMap_cons]
    rcases List.mem_cons.1 listed with same | later
    · subst same
      rw [violations_caseOf_of_tag found,
        violations_cases_of_other object (tag_ne_of_unknown found distinct.1), List.append_nil]
    · -- the name is that of a later variant, and no name is given twice
      have other : v.get? tag ≠ some (.text c.1) := by
        rw [found]
        intro same
        cases same
        exact distinct.1 (List.mem_map.2 ⟨_, later, rfl⟩)
      rw [violations_caseOf_of_other object other, List.nil_append, ih distinct.2 later]

/-- **Under a known tag a union finds what the content finds**, and nothing else. -/
theorem violations_of_tag (distinct : (variants.map (·.1)).Nodup)
    (listed : (name, content) ∈ variants) (found : v.get? tag = some (.text name)) :
    violations resolve (taggedUnion tag variants) p v = resolve content p v := by
  have known : name ∈ variants.map (·.1) := List.mem_map_of_mem listed
  rw [violations_taggedUnion, violations_cases_of_tag distinct listed found,
    violationsOfMembers_single found, violations_oneOfTexts_text, if_pos known]
  obtain ⟨members, rfl⟩ := isObject_of_get? found
  have there : members.lookup tag = some (.text name) := found
  simp [missingKeys, there, demand, ValueType.holds]

/-- **A tag that names no variant is the only violation.** -/
theorem violations_of_unknown_tag (found : v.get? tag = some (.text name))
    (unknown : name ∉ variants.map (·.1)) :
    violations resolve (taggedUnion tag variants) p v =
      [⟨p ++ [.member tag], .text name, .enumeration ((variants.map (·.1)).map .text)⟩] := by
  have others := tag_ne_of_unknown found unknown
  rw [violations_taggedUnion, violations_cases_of_other (isObject_of_get? found) others,
    violationsOfMembers_single found, violations_oneOfTexts_text, if_neg unknown]
  obtain ⟨members, rfl⟩ := isObject_of_get? found
  have there : members.lookup tag = some (.text name) := found
  simp [missingKeys, there, demand, ValueType.holds]

/-- **A tag that is not there is the only violation.** -/
theorem violations_of_missing_tag (object : IsObject v) (absent : v.get? tag = none) :
    violations resolve (taggedUnion tag variants) p v = [⟨p, v, .missing tag⟩] := by
  have untagged : ∀ c ∈ variants, v.get? tag ≠ some (.text c.1) := by
    rw [absent]
    nofun
  rw [violations_taggedUnion, violations_cases_of_other object untagged]
  obtain ⟨members, rfl⟩ := object
  have lacks : members.lookup tag = none := absent
  simp [violationsOfMembers, absent, missingKeys, lacks, demand, ValueType.holds]

/-- All that is found is that the value is no object. -/
def OnlyNoObject (p : Pointer) (v : Json) (found : List Violation) : Prop :=
  found ≠ [] ∧ ∀ x ∈ found, x = ⟨p, v, .type [.object]⟩

/-- **On what is no object a union finds that, and nothing else**, if its contents do. -/
theorem violations_of_not_object (plain : ¬IsObject v)
    (contents : ∀ c ∈ variants, OnlyNoObject p v (resolve c.2 p v)) :
    OnlyNoObject p v (violations resolve (taggedUnion tag variants) p v) := by
  have own : violationsOfMembers resolve [(tag, oneOfTexts (variants.map (·.1)))] p v ++
      (((missingKeys [tag] v).map fun k => ⟨p, v, .missing k⟩) ++
        demand (ValueType.object.holds v) p v (.type [.object])) =
          [⟨p, v, .type [.object]⟩] := by
    cases v with
    | object members => exact absurd ⟨members, rfl⟩ plain
    | _ => simp [violationsOfMembers, get?, missingKeys, demand, ValueType.holds]
  rw [violations_taggedUnion, own]
  refine ⟨by simp, fun x mem => ?_⟩
  rcases List.mem_append.1 mem with case | same
  · obtain ⟨c, listed, found⟩ := List.mem_flatMap.1 case
    rcases mem_violations_caseOf_of_not_object plain found with inner | same
    · exact (contents c listed).2 x inner
    · exact same
  · exact List.mem_singleton.1 same

/-- On what is no object a record finds that, and nothing else. -/
theorem violations_record_of_not_object (plain : ¬IsObject v) {schemas : List (String × Schema)}
    {keys : List String} : OnlyNoObject p v (violations resolve (record schemas keys) p v) := by
  have nothing : ∀ table : List (String × Schema), v.get? = (fun _ => none) →
      violationsOfMembers resolve table p v = [] := by
    intro table lacks
    induction table with
    | nil => rfl
    | cons m rest ih =>
      obtain ⟨key, t⟩ := m
      rw [violationsOfMembers, ih, lacks]
      rfl
  have only : violations resolve (record schemas keys) p v = [⟨p, v, .type [.object]⟩] := by
    rw [record, violations, violationsAll, violations]
    cases v with
    | object members => exact absurd ⟨members, rfl⟩ plain
    | _ =>
      rw [nothing schemas rfl]
      simp [violationsAll, violations, missingKeys, demand, ValueType.holds]
  rw [only]
  exact ⟨List.cons_ne_nil _ _, fun x mem => List.mem_singleton.1 mem⟩

end Schema

end LiteratureReview
