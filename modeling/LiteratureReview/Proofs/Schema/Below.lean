/-
  LiteratureReview.Proofs.Schema.Below
  ────────────────────────────────────
  The violations at and below a place.

  Where a value stands only goes into the places of its violations
  (`violations_under`).  So all of them are at its place or below; and of
  those of a record, the ones below an element of one of its lists are those
  of that element alone, in their order (`filter_record`,
  `filter_of_isListOf`).
-/
import LiteratureReview.Proofs.Schema.Forms
import LiteratureReview.Proofs.Schema.Unfolding

namespace LiteratureReview

open Json

/-- A violation of a value that stands at a place. -/
def Violation.under (p : Pointer) (x : Violation) : Violation := { x with place := p ++ x.place }

/-- The violation is at a place or below it. -/
def Violation.isBelow (p : Pointer) (x : Violation) : Bool := p <+: x.place

theorem Violation.isBelow_under (p : Pointer) (x : Violation) : (x.under p).isBelow p = true :=
  decide_eq_true (List.prefix_append p x.place)

/-- What is below a place is below those above. -/
theorem filter_isBelow_append (p rest : Pointer) (xs : List Violation) :
    (xs.filter (Violation.isBelow p)).filter (Violation.isBelow (p ++ rest)) =
      xs.filter (Violation.isBelow (p ++ rest)) := by
  rw [List.filter_filter]
  refine List.filter_congr fun x _ => ?_
  unfold Violation.isBelow
  rw [Bool.eq_iff_iff, Bool.and_eq_true, decide_eq_true_eq, decide_eq_true_eq]
  exact ⟨And.left, fun below => ⟨below, (List.prefix_append p rest).trans below⟩⟩

namespace Schema

/-! ## §1. Values at a place. -/

/-- References are answered alike at all places. -/
def Shifts (resolve : Resolver) : Prop :=
  ∀ name p q v, resolve name (p ++ q) v = (resolve name q v).map (.under p)

theorem demand_under {holds : Bool} (p q : Pointer) (v : Json) (b : Breach) :
    demand holds (p ++ q) v b = (demand holds q v b).map (.under p) := by
  cases holds <;> rfl

theorem elementsOf_under (p q : Pointer) (v : Json) :
    elementsOf (p ++ q) v = (elementsOf q v).map fun e => (p ++ e.1, e.2) := by
  cases v with
  | list items =>
    rw [elementsOf, elementsOf, List.mapIdx_eq_zipIdx_map, List.mapIdx_eq_zipIdx_map,
      List.map_map]
    exact List.map_congr_left fun e _ => by simp only [Function.comp_apply, List.append_assoc]
  | null | bool b | number n | text s | object members => rfl

section

variable {resolve : Resolver}

mutual

/-- **Where a value stands only goes into the places of its violations.** -/
theorem violations_under (shifts : Shifts resolve) (p : Pointer) :
    (s : Schema) → (q : Pointer) → (v : Json) →
      violations resolve s (p ++ q) v = (violations resolve s q v).map (.under p)
  | .always, _, _ => rfl
  | .never, _, _ => rfl
  | .ref name, q, v => shifts name p q v
  | .all parts, q, v => violationsAll_under shifts p parts q v
  | .any branches, q, v => by
    rw [violations, violations, countHolding_under shifts p branches q v, demand_under]
  | .one branches, q, v => by
    rw [violations, violations, countHolding_under shifts p branches q v]
    split <;> rfl
  | .negate part, q, v => by
    rw [violations, violations, violations_under shifts p part q v, List.isEmpty_map, demand_under]
  | .conditional test consequence alternative, q, v => by
    rw [violations, violations, violations_under shifts p test q v, List.isEmpty_map,
      violations_under shifts p consequence q v, violations_under shifts p alternative q v]
    split <;> rfl
  | .type _, q, v => demand_under ..
  | .constant _, q, v => demand_under ..
  | .enumeration _, q, v => demand_under ..
  | .limit _, q, v => demand_under ..
  | .extent _, q, v => demand_under ..
  | .pattern _, q, v => demand_under ..
  | .required keys, q, v => by
    rw [violations, violations, List.map_map]
    rfl
  | .properties schemas, q, v => violationsOfMembers_under shifts p schemas q v
  | .elements schema, q, v => by
    rw [violations, violations, elementsOf_under, List.flatMap_map, List.map_flatMap]
    exact List.flatMap_congr fun e _ => violations_under shifts p schema e.1 e.2

theorem violationsAll_under (shifts : Shifts resolve) (p : Pointer) :
    (parts : List Schema) → (q : Pointer) → (v : Json) →
      violationsAll resolve parts (p ++ q) v = (violationsAll resolve parts q v).map (.under p)
  | [], _, _ => rfl
  | s :: rest, q, v => by
    rw [violationsAll, violationsAll, violations_under shifts p s q v,
      violationsAll_under shifts p rest q v, List.map_append]

theorem countHolding_under (shifts : Shifts resolve) (p : Pointer) :
    (branches : List Schema) → (q : Pointer) → (v : Json) →
      countHolding resolve branches (p ++ q) v = countHolding resolve branches q v
  | [], _, _ => rfl
  | s :: rest, q, v => by
    rw [countHolding, countHolding, violations_under shifts p s q v, List.isEmpty_map,
      countHolding_under shifts p rest q v]

theorem violationsOfMembers_under (shifts : Shifts resolve) (p : Pointer) :
    (schemas : List (String × Schema)) → (q : Pointer) → (v : Json) →
      violationsOfMembers resolve schemas (p ++ q) v =
        (violationsOfMembers resolve schemas q v).map (.under p)
  | [], _, _ => rfl
  | (key, s) :: rest, q, v => by
    rw [violationsOfMembers, violationsOfMembers, violationsOfMembers_under shifts p rest q v,
      List.map_append]
    cases v.get? key with
    | none => rfl
    | some w =>
      show violations resolve s (p ++ q ++ [.member key]) w ++ _ = _
      rw [List.append_assoc, violations_under shifts p s (q ++ [Step.member key]) w]

end

/-- All violations of a value are at its place or below. -/
theorem isBelow_of_mem (shifts : Shifts resolve) {s : Schema} {p : Pointer} {v : Json}
    {x : Violation} (mem : x ∈ violations resolve s p v) : x.isBelow p = true := by
  rw [← List.append_nil p, violations_under shifts] at mem
  obtain ⟨y, -, rfl⟩ := List.mem_map.1 mem
  exact y.isBelow_under p

theorem filter_self (shifts : Shifts resolve) (s : Schema) (p : Pointer) (v : Json) :
    (violations resolve s p v).filter (Violation.isBelow p) = violations resolve s p v :=
  List.filter_eq_self.2 fun _ mem => isBelow_of_mem shifts mem

/-! ## §2. Members and elements. -/

/-- Nothing that is behind another step is below. -/
theorem not_isBelow_of_step {p rest : Pointer} {s t : Step} {x : Violation} (differ : s ≠ t)
    (behind : x.isBelow (p ++ [s]) = true) : x.isBelow (p ++ t :: rest) = false := by
  unfold Violation.isBelow at behind ⊢
  rw [decide_eq_true_eq] at behind
  rw [decide_eq_false_iff_not]
  intro below
  obtain ⟨xs, first⟩ := behind
  obtain ⟨ys, second⟩ := below
  rw [← second, List.append_assoc, List.append_assoc] at first
  exact differ (List.cons.inj (List.append_cancel_left first)).1

/-- Nothing at a place is below it by a step. -/
theorem not_isBelow_here {p rest : Pointer} {s : Step} {x : Violation} (here : x.place = p) :
    x.isBelow (p ++ s :: rest) = false := by
  unfold Violation.isBelow
  rw [decide_eq_false_iff_not, here]
  intro below
  have := below.length_le
  simp at this

theorem filter_eq_nil_of_here {xs : List Violation} {p rest : Pointer} {s : Step}
    (here : ∀ x ∈ xs, x.place = p) : xs.filter (Violation.isBelow (p ++ s :: rest)) = [] :=
  List.filter_eq_nil_iff.2 fun x mem => by simp [not_isBelow_here (here x mem)]

theorem place_of_mem_demand {holds : Bool} {p : Pointer} {v : Json} {b : Breach} {x : Violation}
    (mem : x ∈ demand holds p v b) : x.place = p := by
  cases holds with
  | true => cases mem
  | false =>
    obtain rfl := List.mem_singleton.1 mem
    rfl

variable {p : Pointer} {v w : Json} {s : Schema}

theorem violationsOfMembers_single {key : String} (there : v.get? key = some w) :
    violationsOfMembers resolve [(key, s)] p v = violations resolve s (p ++ [.member key]) w := by
  rw [violationsOfMembers, there, violationsOfMembers, List.append_nil]

theorem violationsOfMembers_cons (m : String × Schema) (table : List (String × Schema)) :
    violationsOfMembers resolve (m :: table) p v =
      violationsOfMembers resolve [m] p v ++ violationsOfMembers resolve table p v := by
  obtain ⟨key, t⟩ := m
  rw [violationsOfMembers, violationsOfMembers, violationsOfMembers, List.append_nil]

/-- A violation of the members is below one of their keys. -/
theorem isBelow_of_mem_members (shifts : Shifts resolve) {schemas : List (String × Schema)}
    {x : Violation} (mem : x ∈ violationsOfMembers resolve schemas p v) :
    ∃ key ∈ schemas.map (·.1), x.isBelow (p ++ [.member key]) = true := by
  induction schemas with
  | nil => cases mem
  | cons m table ih =>
    obtain ⟨key, t⟩ := m
    rw [violationsOfMembers_cons, List.mem_append] at mem
    rcases mem with first | later
    · cases there : v.get? key with
      | none =>
        rw [violationsOfMembers, there] at first
        cases first
      | some w =>
        rw [violationsOfMembers_single there] at first
        exact ⟨key, List.mem_cons_self, isBelow_of_mem shifts first⟩
    · obtain ⟨other, listed, below⟩ := ih later
      exact ⟨other, List.mem_cons_of_mem _ listed, below⟩

/-- Members under other keys have nothing below a key. -/
theorem filter_members_absent (shifts : Shifts resolve) {schemas : List (String × Schema)}
    {key : String} (absent : key ∉ schemas.map (·.1)) (rest : Pointer) :
    (violationsOfMembers resolve schemas p v).filter
        (Violation.isBelow (p ++ .member key :: rest)) = [] := by
  refine List.filter_eq_nil_iff.2 fun x mem => ?_
  obtain ⟨other, listed, below⟩ := isBelow_of_mem_members shifts mem
  have differ : other ≠ key := by
    rintro rfl
    exact absent listed
  rw [not_isBelow_of_step (mt Step.member.inj differ) below]
  exact Bool.false_ne_true

/-- Of the violations of members, those below one of them are its own. -/
theorem filter_members (shifts : Shifts resolve) {schemas : List (String × Schema)} {key : String}
    (distinct : (schemas.map (·.1)).Nodup) (listed : schemas.lookup key = some s)
    (there : v.get? key = some w) (rest : Pointer) :
    (violationsOfMembers resolve schemas p v).filter
        (Violation.isBelow (p ++ .member key :: rest)) =
      (violations resolve s (p ++ [.member key]) w).filter
        (Violation.isBelow (p ++ .member key :: rest)) := by
  induction schemas with
  | nil => cases listed
  | cons m table ih =>
    obtain ⟨k, t⟩ := m
    rw [List.map_cons, List.nodup_cons] at distinct
    rw [violationsOfMembers_cons, List.filter_append]
    by_cases same : key = k
    · subst same
      rw [List.lookup_cons_self] at listed
      cases listed
      rw [violationsOfMembers_single there, filter_members_absent shifts distinct.1,
        List.append_nil]
    · rw [List.lookup_cons, beq_false_of_ne same] at listed
      have absent : key ∉ [(k, t)].map (·.1) := by simpa using same
      rw [filter_members_absent shifts absent, List.nil_append, ih distinct.2 listed]

/-- What is found in one element only. -/
theorem flatMap_mapIdx_single {α β γ : Type} {f : Nat → α → β} {g : β → List γ} {items : List α}
    {i : Nat} {a : α} (there : items[i]? = some a)
    (others : ∀ j b, items[j]? = some b → j ≠ i → g (f j b) = []) :
    (items.mapIdx f).flatMap g = g (f i a) := by
  induction items generalizing f i with
  | nil => cases there
  | cons b rest ih =>
    rw [List.mapIdx_cons, List.flatMap_cons]
    cases i with
    | zero =>
      cases there
      have none : (rest.mapIdx fun j => f (j + 1)).flatMap g = [] := by
        refine List.flatMap_eq_nil_iff.2 fun e mem => ?_
        obtain ⟨j, small, rfl⟩ := List.mem_mapIdx.1 mem
        exact others (j + 1) rest[j] (List.getElem?_eq_getElem small) (Nat.succ_ne_zero j)
      rw [none, List.append_nil]
    | succ i =>
      rw [others 0 b rfl (Nat.succ_ne_zero i).symm, List.nil_append]
      exact ih there fun j c found differ => others (j + 1) c found (mt Nat.succ.inj differ)

/-- Of the violations of elements, those below one of them are its own. -/
theorem filter_elements (shifts : Shifts resolve) {items : List Json} {i : Nat}
    (there : items[i]? = some w) :
    (violations resolve (.elements s) p (.list items)).filter
        (Violation.isBelow (p ++ [.element i])) =
      violations resolve s (p ++ [.element i]) w := by
  rw [violations, elementsOf, List.filter_flatMap, flatMap_mapIdx_single there,
    filter_self shifts]
  intro j u _ differ
  refine List.filter_eq_nil_iff.2 fun x mem => ?_
  have behind := isBelow_of_mem shifts mem
  simp [not_isBelow_of_step (mt Step.element.inj differ) behind]

/-! ## §3. Records and lists. -/

/-- Of the violations of a record, those below a member are among the member's. -/
theorem filter_record (shifts : Shifts resolve) {schemas : List (String × Schema)}
    {keys : List String} {key : String} (distinct : (schemas.map (·.1)).Nodup)
    (listed : schemas.lookup key = some s) (there : v.get? key = some w) (rest : Pointer) :
    (violations resolve (record schemas keys) p v).filter
        (Violation.isBelow (p ++ .member key :: rest)) =
      (violations resolve s (p ++ [.member key]) w).filter
        (Violation.isBelow (p ++ .member key :: rest)) := by
  -- the record itself is complained of at its own place
  have own : ∀ x ∈ violationsAll resolve [.required keys, .type [.object]] p v, x.place = p := by
    intro x mem
    simp only [violationsAll, List.append_nil, List.mem_append] at mem
    rcases mem with missing | type
    · obtain ⟨k, -, rfl⟩ := List.mem_map.1 missing
      rfl
    · exact place_of_mem_demand type
  have apart : violations resolve (record schemas keys) p v =
      violationsOfMembers resolve schemas p v ++
        violationsAll resolve [.required keys, .type [.object]] p v := rfl
  rw [apart, List.filter_append, filter_eq_nil_of_here own, List.append_nil,
    filter_members shifts distinct listed there]

/-- A schema of lists demands something of the elements, and the rest of the list. -/
inductive IsListOf (s : Schema) : Schema → Prop where
  | listOf (least : Nat) : IsListOf s (listOf least s)
  | listOrNull (least : Nat) : IsListOf s (listOrNull least s)
  | anyListOrNull : IsListOf s (anyListOrNull s)

/-- Of the violations of a list, those below an element are its own. -/
theorem filter_of_isListOf (shifts : Shifts resolve) {list : Schema} (form : IsListOf s list)
    {items : List Json} {i : Nat} (there : items[i]? = some w) :
    (violations resolve list p (.list items)).filter (Violation.isBelow (p ++ [.element i])) =
      violations resolve s (p ++ [.element i]) w := by
  -- the list itself is complained of at its own place
  obtain ⟨bounds, own, apart⟩ : ∃ bounds, (∀ x ∈ bounds, x.place = p) ∧
      violations resolve list p (.list items) =
        violations resolve (.elements s) p (.list items) ++ bounds := by
    cases form with
    | listOf least | listOrNull least =>
      refine ⟨_, fun x mem => ?_, rfl⟩
      simp only [violationsAll, List.append_nil, List.mem_append] at mem
      exact mem.elim place_of_mem_demand place_of_mem_demand
    | anyListOrNull =>
      refine ⟨_, fun x mem => ?_, rfl⟩
      simp only [violationsAll, List.append_nil] at mem
      exact place_of_mem_demand mem
  rw [apart, List.filter_append, filter_eq_nil_of_here own, List.append_nil,
    filter_elements shifts there]

/-- Of the violations of a record, those below an element of one of its lists are its own. -/
theorem filter_element_of_record (shifts : Shifts resolve) {schemas : List (String × Schema)}
    {keys : List String} {key : String} {list : Schema} {items : List Json} {i : Nat}
    (distinct : (schemas.map (·.1)).Nodup) (listed : schemas.lookup key = some list)
    (form : IsListOf s list) (held : v.get? key = some (.list items))
    (there : items[i]? = some w) :
    (violations resolve (record schemas keys) p v).filter
        (Violation.isBelow (p ++ [.member key, .element i])) =
      violations resolve s (p ++ [.member key, .element i]) w := by
  rw [filter_record shifts distinct listed held]
  have steps : p ++ [.member key, .element i] = p ++ [.member key] ++ [.element i] := by
    rw [List.append_assoc]
    rfl
  rw [steps, filter_of_isListOf shifts form there]

end

end Schema

/-! ## §4. Documents. -/

namespace SchemaDocument

open Schema

variable {d : SchemaDocument}

theorem shifts_lookup (d : SchemaDocument) (n : Nat) : Shifts (d.lookup n) := by
  induction n with
  | zero => exact fun name p q v => rfl
  | succ n ih =>
    intro name p q v
    rw [lookup, lookup]
    cases d.definitions.lookup name with
    | none => rfl
    | some s => exact violations_under ih p s q v

theorem shifts_answer (d : SchemaDocument) : Shifts d.answer :=
  fun name p q v => shifts_lookup d (d.references v) name p q v

/-- Of a document, references ask for the definitions only. -/
theorem lookup_root (d : SchemaDocument) (s : Schema) (n : Nat) :
    lookup ⟨s, d.definitions⟩ n = d.lookup n := by
  induction n with
  | zero => rfl
  | succ n ih =>
    funext name p v
    rw [lookup, lookup, ih]

/-- What a schema with the definitions of a document finds in a value by itself, told of the
value at a place. -/
def alone (d : SchemaDocument) (s : Schema) (p : Pointer) (v : Json) : List Violation :=
  ((⟨s, d.definitions⟩ : SchemaDocument).violations v).map (.under p)

/-- A value is checked at a place as it is by itself. -/
theorem alone_eq {rank : String → Nat} (ranked : d.IsRanked rank) (s : Schema) (p : Pointer)
    (v : Json) : d.alone s p v = s.violations d.answer p v := by
  have same : IsRanked ⟨s, d.definitions⟩ rank := ⟨ranked.lower, ranked.bounded⟩
  have answers : answer ⟨s, d.definitions⟩ = d.answer := by
    funext name q w
    exact congrFun (congrFun (congrFun (lookup_root d s _) name) q) w
  have whole := violations_under (shifts_answer d) p s [] v
  rw [List.append_nil] at whole
  rw [alone, violations_eq same, answers, whole]

end SchemaDocument

end LiteratureReview
