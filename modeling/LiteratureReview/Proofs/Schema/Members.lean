/-
  LiteratureReview.Proofs.Schema.Members
  ──────────────────────────────────────
  What a record says once one of its members has been changed.

  The violations of a record are those of its members, one after the other,
  and then the keys that it lacks (`violations_record_of_isObject`).  So a
  change under one key changes what is said of that key, and nothing else
  (`told_of_members`).  If the change fills a gap with a value that fits,
  what was said of the gap goes, and the rest stays in its order
  (`told_fillGap`); if it is a change inside the member, then what is said
  inside changes (`told_set`).
-/
import LiteratureReview.Proofs.Json.ReadBack
import LiteratureReview.Proofs.Schema.Below
import LiteratureReview.Proofs.Schema.Places
import LiteratureReview.Proofs.Settings.Filling

namespace LiteratureReview

open Json Grammar

/-- The errors that violations are reported as. -/
def told (xs : List Violation) : List FieldError := xs.map Violation.toFieldError

/-- The violation says that a key is missing from the object at a place, or is about what stands
under the key. -/
def Violation.isAbout (p : Pointer) (key : String) (x : Violation) : Bool :=
  x.claim = (p, (Breach.missing key).wording) || x.place = p ++ [.member key]

/-- Keys are told apart by their texts. -/
theorem Json.printText_injective {a b : String} (same : printText a = printText b) : a = b := by
  have read : ∀ s : String, Json.parse (printText s) = .ok (.text s) :=
    fun s => parse_print (v := .text s) rfl (Nat.zero_lt_succ _)
  have both := (read a).symm.trans ((congrArg Json.parse same).trans (read b))
  exact Json.text.inj (Except.ok.inj both)

theorem Breach.wording_missing_inj {k l : String}
    (same : (Breach.missing k).wording = (Breach.missing l).wording) : k = l :=
  printText_injective ((String.append_left_inj _).1 (Wording.alone.inj same))

namespace Schema

variable {resolve : Resolver} {s : Schema} {p : Pointer} {v v' w w' value : Json} {key : String}
variable {schemas : List (String × Schema)} {keys : List String} {keep : Violation → Bool}

/-! ## §1. Members and missing keys. -/

/-- An object breaks a record in its members and in the keys it lacks. -/
theorem violations_record_of_isObject (object : IsObject v) :
    violations resolve (record schemas keys) p v =
      violationsOfMembers resolve schemas p v ++
        (keys.filter fun k => (v.get? k).isNone).map fun k => ⟨p, v, .missing k⟩ := by
  obtain ⟨members, rfl⟩ := object
  rw [record, violations, violationsAll, violationsAll, violationsAll, violationsAll, violations,
    violations, violations]
  simp [demand, ValueType.holds, missingKeys, get?]

/-- Nothing that is said below a member is about another key, or says that one is missing. -/
theorem isAbout_of_isBelow {x : Violation} {k : String} (differ : k ≠ key)
    (below : x.isBelow (p ++ [.member k]) = true) : x.isAbout p key = false := by
  have longer : p.length < x.place.length := by
    have prefix_ := (of_decide_eq_true below).length_le
    rw [List.length_append, List.length_singleton] at prefix_
    omega
  unfold Violation.isAbout
  rw [Bool.or_eq_false_iff, decide_eq_false_iff_not, decide_eq_false_iff_not]
  constructor
  · intro same
    have here : x.place = p := congrArg Prod.fst same
    rw [here] at longer
    exact lt_irrefl _ longer
  · intro here
    have other : x.isBelow (p ++ [.member key]) = false :=
      not_isBelow_of_step (mt Step.member.inj differ) below
    rw [Violation.isBelow, decide_eq_false_iff_not, here] at other
    exact other (List.prefix_refl _)

theorem isAbout_missing_iff {k : String} :
    Violation.isAbout p key ⟨p, v, .missing k⟩ = true ↔ k = key := by
  have longer : p ≠ p ++ [Step.member key] := by simp
  rw [Violation.isAbout, Bool.or_eq_true, decide_eq_true_eq, decide_eq_true_eq]
  constructor
  · rintro (same | here)
    · exact Breach.wording_missing_inj (congrArg Prod.snd same)
    · exact absurd here longer
  · rintro rfl
    exact .inl rfl

/-- **Of an object that is changed, a record says what is left of what it said before**, if that
is so of each member and of each key that is missing. -/
theorem told_of_members (object : IsObject v) (object' : IsObject v')
    (members : ∀ m ∈ schemas, told (violationsOfMembers resolve [m] p v') =
      told ((violationsOfMembers resolve [m] p v).filter keep))
    (missing : ∀ k ∈ keys, (v'.get? k).isNone =
      ((v.get? k).isNone && keep ⟨p, v, .missing k⟩)) :
    told (violations resolve (record schemas keys) p v') =
      told ((violations resolve (record schemas keys) p v).filter keep) := by
  have inside : told (violationsOfMembers resolve schemas p v') =
      told ((violationsOfMembers resolve schemas p v).filter keep) := by
    induction schemas with
    | nil => rfl
    | cons m rest ih =>
      obtain ⟨first, later⟩ := List.forall_mem_cons.1 members
      rw [violationsOfMembers_cons m, violationsOfMembers_cons (v := v) m, List.filter_append,
        told, told, List.map_append, List.map_append]
      exact congrArg₂ (· ++ ·) first (ih later)
  have lacking : told ((keys.filter fun k => (v'.get? k).isNone).map fun k => ⟨p, v', .missing k⟩) =
      told (((keys.filter fun k => (v.get? k).isNone).map
        fun k => (⟨p, v, .missing k⟩ : Violation)).filter keep) := by
    have chosen : (keys.filter fun k => (v'.get? k).isNone) =
        (keys.filter fun k => (v.get? k).isNone).filter fun k => keep ⟨p, v, .missing k⟩ := by
      rw [List.filter_filter]
      refine List.filter_congr fun k mem => ?_
      rw [missing k mem, Bool.and_comm]
    rw [chosen, List.filter_map, told, told, List.map_map, List.map_map]
    rfl
  rw [violations_record_of_isObject object, violations_record_of_isObject object',
    List.filter_append, told, told, List.map_append, List.map_append]
  exact congrArg₂ (· ++ ·) inside lacking

/-! ## §2. Filling a gap. -/

/-- A member that stays says what it said, where nothing of that is about the changed key. -/
theorem told_member_of_ne (shifts : Shifts resolve) {k : String}
    (differ : k ≠ key) (same : v'.get? k = v.get? k)
    (kept : ∀ x, x.isBelow (p ++ [.member k]) = true → keep x = true) :
    told (violationsOfMembers resolve [(k, s)] p v') =
      told ((violationsOfMembers resolve [(k, s)] p v).filter keep) := by
  have members : violationsOfMembers resolve [(k, s)] p v' =
      violationsOfMembers resolve [(k, s)] p v := by
    rw [violationsOfMembers, violationsOfMembers, same]
    rfl
  rw [members, List.filter_eq_self.2]
  intro x mem
  obtain ⟨l, listed, below⟩ := isBelow_of_mem_members shifts mem
  obtain rfl := List.mem_singleton.1 listed
  exact kept x below

/-- Whatever a schema says of a gap it says of the gap as a whole. -/
def TakesWhole (resolve : Resolver) (s : Schema) : Prop :=
  ∀ p w, isGap (some w) = true → ∀ x ∈ violations resolve s p w, x.place = p

/-- All that is said of a member that is a gap is said at its place. -/
theorem isAbout_of_gap (whole : TakesWhole resolve s) (gap : isGap (v.get? key) = true)
    {x : Violation} (found : x ∈ violationsOfMembers resolve [(key, s)] p v) :
    x.isAbout p key = true := by
  cases there : v.get? key with
  | none =>
    rw [violationsOfMembers, there] at found
    cases found
  | some w =>
    rw [violationsOfMembers_single there] at found
    have here := whole _ w (there ▸ gap) x found
    rw [Violation.isAbout, here, decide_eq_true rfl, Bool.or_true]

/-- **Filling a gap of a record takes away what was said about it, and nothing else.** -/
theorem told_fillGap (shifts : Shifts resolve) (listed : schemas.lookup key = some s)
    (distinct : (schemas.map (·.1)).Nodup) (whole : TakesWhole resolve s)
    (fits : violations resolve s (p ++ [.member key]) value = []) (object : IsObject v)
    (gap : isGap (v.get? key) = true) :
    told (violations resolve (record schemas keys) p (DefaultsSettings.fillGap key value v)) =
      told ((violations resolve (record schemas keys) p v).filter fun x => !x.isAbout p key) := by
  have lookups : ∀ k, (DefaultsSettings.fillGap key value v).get? k =
      if k = key then some value else v.get? k := by
    intro k
    rw [DefaultsSettings.get?_fillGap object]
    simp only [gap, and_true]
  refine told_of_members object (DefaultsSettings.isObject_fillGap_iff.2 object) ?_ ?_
  · rintro ⟨k, t⟩ mem
    by_cases same : k = key
    · subst same
      obtain rfl : t = s := Option.some.inj ((lookup_of_mem distinct mem).symm.trans listed)
      have after : (DefaultsSettings.fillGap k value v).get? k = some value := by
        rw [lookups, if_pos rfl]
      rw [violationsOfMembers_single after, fits,
        List.filter_eq_nil_iff.2 fun x found => by simp [isAbout_of_gap whole gap found]]
    · exact told_member_of_ne shifts same (by rw [lookups, if_neg same])
        fun x below => by rw [isAbout_of_isBelow same below]; rfl
  · intro k _
    rw [lookups]
    by_cases same : k = key
    · rw [if_pos same, isAbout_missing_iff.2 same, Option.isNone_some, Bool.not_true,
        Bool.and_false]
    · rw [if_neg same, Bool.eq_false_iff.2 (mt isAbout_missing_iff.1 same), Bool.not_false,
        Bool.and_true]

/-! ## §3. Changing a member. -/

/-- **A change inside a member changes what a record says inside of it, and nothing else.** -/
theorem told_set (shifts : Shifts resolve) (listed : schemas.lookup key = some s)
    (distinct : (schemas.map (·.1)).Nodup) (there : v.get? key = some w)
    (inner : told (violations resolve s (p ++ [.member key]) w') =
      told ((violations resolve s (p ++ [.member key]) w).filter keep))
    (kept : ∀ x, x.isBelow (p ++ [.member key]) = false → keep x = true) :
    told (violations resolve (record schemas keys) p (v.set key w')) =
      told ((violations resolve (record schemas keys) p v).filter keep) := by
  have object := isObject_of_get? there
  refine told_of_members object (isObject_set object) ?_ ?_
  · rintro ⟨k, t⟩ mem
    by_cases same : k = key
    · subst same
      obtain rfl : t = s := Option.some.inj ((lookup_of_mem distinct mem).symm.trans listed)
      have after : (v.set k w').get? k = some w' := by rw [get?_set object, if_pos rfl]
      rw [violationsOfMembers_single after, violationsOfMembers_single there, inner]
    · refine told_member_of_ne shifts same (by rw [get?_set object, if_neg same])
        fun x below => kept x (not_isBelow_of_step (mt Step.member.inj same) below)
  · intro k _
    have own : keep ⟨p, v, .missing k⟩ = true := kept _ (not_isBelow_here rfl)
    rw [own, Bool.and_true, get?_set object]
    by_cases same : k = key
    · rw [if_pos same, same, there]
      rfl
    · rw [if_neg same]

end Schema

end LiteratureReview
