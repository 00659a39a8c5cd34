/-
  LiteratureReview.Proofs.Schema.Conformance
  ──────────────────────────────────────────
  Records that are accepted under a published name.

  A record is written key by key, and its form lists the same keys in the
  same order; so it is accepted when under each key stands what the form has
  for it (`Member.Fits`).  There is a lemma for every kind of value that is
  written, and one that puts them together (`accepts_written`).
-/
import LiteratureReview.Proofs.Json.Writing
import LiteratureReview.Proofs.Protocol.Typing
import LiteratureReview.Proofs.Schema.RowGrammars

namespace LiteratureReview

open Json Grammar

/-- Whatever stands in the one list has a partner in the other. -/
theorem exists_of_mem_left {α β : Type} {R : α → β → Prop} {as : List α} {bs : List β} {a : α}
    (pairs : List.Forall₂ R as bs) (mem : a ∈ as) : ∃ b ∈ bs, R a b := by
  induction pairs with
  | nil => cases mem
  | cons first _ ih =>
    rcases List.mem_cons.1 mem with rfl | later
    · exact ⟨_, List.mem_cons_self, first⟩
    · obtain ⟨b, there, pair⟩ := ih later
      exact ⟨b, List.mem_cons_of_mem _ there, pair⟩

namespace Schema

variable {known : Known} {members : List Member} {table : List (String × Option Json)}

/-! ## §1. Keys that fit. -/

/-- What is written of a field fits a key of the form. -/
structure Member.Fits (known : Known) (m : Member) (field : String × Option Json) : Prop where
  key : m.key = field.1
  there : m.needed = true → field.2.isSome = true
  holds : ∀ w, field.2 = some w → m.schema.holds known w.normalize = true

/-- **A record fits its form when all its keys do.** -/
theorem holds_recordOf (distinct : (table.map (·.1)).Nodup)
    (fits : List.Forall₂ (Member.Fits known) members table) :
    (recordOf members).holds known (Json.object (given table)).normalize = true := by
  -- the form is sorted and so is the record; what stands under a key is found in both
  have found : ∀ m ∈ members, ∃ o, m.Fits known (m.key, o) ∧
      (Json.object (given table)).normalize.get? m.key = o.map Json.normalize := by
    intro m mem
    obtain ⟨⟨key, o⟩, field, fit⟩ := exists_of_mem_left fits mem
    obtain rfl : m.key = key := fit.key
    exact ⟨o, fit, get?_written distinct (lookup_of_mem distinct field)⟩
  refine holds_record_iff.2 ⟨⟨_, rfl⟩, ?_, ?_⟩
  · refine List.forall_iff_forall_mem.2 fun k mem => ?_
    obtain ⟨m, among, rfl⟩ := List.mem_map.1 mem
    obtain ⟨among, needed⟩ := List.mem_filter.1 among
    obtain ⟨o, fit, get⟩ := found m among
    rw [get, Option.isSome_map]
    exact fit.there needed
  · refine List.forall_iff_forall_mem.2 fun e mem w there => ?_
    obtain ⟨m, among, rfl⟩ := mem_tableOf_iff.1 mem
    obtain ⟨o, fit, get⟩ := found m among
    rw [get] at there
    obtain ⟨u, given, rfl⟩ := Option.map_eq_some_iff.1 there
    exact fit.holds u given

/-! ## §2. Values that are written. -/

section Values

variable {s : Schema}

theorem holds_text (t : String) : textual.holds known (Json.text t).normalize = true :=
  holds_textual_iff.2 ⟨t, rfl⟩

theorem holds_textOrNull (t : String) : textOrNull.holds known (Json.text t).normalize = true :=
  holds_textOrNull_iff.2 (.inr ⟨t, rfl⟩)

theorem holds_texts (names : List String) :
    (anyListOrNull textual).holds known (texts names).normalize = true := by
  refine holds_anyListOrNull_iff.2 (.inr ⟨_, rfl, Nat.zero_le _, fun w mem => ?_⟩)
  rw [normalizeItems_eq_map, List.mem_map] at mem
  obtain ⟨_, there, rfl⟩ := mem
  obtain ⟨t, _, rfl⟩ := List.mem_map.1 there
  exact holds_text t

theorem isWhole_nat (n : Nat) : IsWhole 0 none (nat n).normalize :=
  ⟨.int n, rfl, rfl, less_int_iff.2 (Int.natCast_nonneg n), nofun⟩

theorem holds_natOrNull (n : Nat) : (wholeFromOrNull 0).holds known (nat n).normalize = true :=
  holds_wholeFromOrNull_iff.2 (.inr (isWhole_nat n))

theorem holds_i64 (i : Int64) : integerOrNull.holds known (i64 i).normalize = true :=
  holds_integerOrNull_iff.2 (.inr ⟨_, rfl, rfl⟩)

theorem holds_spelling {α : Type} {spelled : List (String × α)} {t : String}
    (h : t ∈ spelled.map (·.1)) :
    (RowGrammar.spellings spelled).holds known (Json.text t).normalize = true :=
  holds_oneOfTexts_iff.2 ⟨t, h, rfl⟩

end Values

/-! ## §3. Fields that are written. -/

section Fields

variable {s : Schema} (key : String)

theorem fits_need {w : Json} (h : s.holds known w.normalize = true) :
    (need key s).Fits known (key, some w) :=
  ⟨rfl, fun _ => rfl, fun _ same => Option.some.inj same ▸ h⟩

/-- A field that is null when there is nothing to write. -/
theorem fits_orNull {α : Type} {write : α → Json} (o : Option α)
    (null : s.holds known .null = true) (h : ∀ a, s.holds known (write a).normalize = true) :
    (may key s).Fits known (key, some (orNull write o)) := by
  refine ⟨rfl, nofun, fun w same => Option.some.inj same ▸ ?_⟩
  cases o with
  | none => exact null
  | some a => exact h a

/-- A field that is left out when there is nothing to write. -/
theorem fits_optional {α : Type} {write : α → Json} (o : Option α)
    (h : ∀ a, s.holds known (write a).normalize = true) :
    (may key s).Fits known (key, o.map write) := by
  refine ⟨rfl, nofun, fun w there => ?_⟩
  obtain ⟨a, _, rfl⟩ := Option.map_eq_some_iff.1 there
  exact h a

theorem fits_text (t : String) : (need key textual).Fits known (key, some (.text t)) :=
  fits_need key (holds_text t)

theorem fits_textOrNull {α : Type} {write : α → String} (o : Option α) :
    (may key textOrNull).Fits known (key, some (orNull (fun a => .text (write a)) o)) :=
  fits_orNull key o (holds_textOrNull_iff.2 (.inl rfl)) fun a => holds_textOrNull (write a)

theorem fits_texts (o : Option (List String)) :
    (may key (anyListOrNull textual)).Fits known (key, some (orNull texts o)) :=
  fits_orNull key o (holds_anyListOrNull_iff.2 (.inl rfl)) holds_texts

theorem fits_flag (b : Bool) : (need key boolean).Fits known (key, some (.bool b)) :=
  fits_need key (holds_boolean_iff.2 ⟨b, rfl⟩)

theorem fits_double (x : Decimal.Double) :
    (need key numeric).Fits known (key, some (double x)) :=
  fits_need key (holds_numeric_iff.2 ⟨.float x, rfl⟩)

theorem fits_nat (n : Nat) : (need key (wholeFrom 0)).Fits known (key, some (nat n)) :=
  fits_need key (holds_wholeFrom_iff.2 (isWhole_nat n))

theorem fits_natOrNull (o : Option Nat) :
    (may key (wholeFromOrNull 0)).Fits known (key, some (orNull nat o)) :=
  fits_orNull key o (holds_wholeFromOrNull_iff.2 (.inl rfl)) holds_natOrNull

/-- A field whose form is a definition. -/
theorem fits_reference {d : SchemaDocument} {n : Nat} {name : String} {w : Json}
    (found : d.definitions.lookup name = some s)
    (h : s.holds (d.knows n) w.normalize = true) :
    (need key (reference name)).Fits (d.knows (n + 1)) (key, some w) :=
  fits_need key (by rw [holds_reference, d.knows_succ found, h])

end Fields

end Schema

/-! ## §4. Records that are written. -/

namespace Registry

open Schema

/-- The JSON form of something is accepted under a name. -/
def Accepts (name : String) (v : Json) : Prop := validate name v.normalize = .ok ()

/-- **A record is accepted when its fields fit the published form**, where a reference
leaves as many to go as any of the fields may need. -/
theorem accepts_written {name : String} {d : SchemaDocument} {members : List Member}
    {fields : List (String × Json)} (found : published.lookup name = some d)
    (form : d.root = recordOf members) (distinct : (fields.map (·.1)).Nodup)
    (fits : ∀ n, (∀ f ∈ fields, d.references f.2.normalize ≤ n) →
      List.Forall₂ (fun m f => m.Fits (d.knows (n + 1)) (f.1, some f.2)) members fields) :
    Accepts name (.object fields) := by
  obtain ⟨n, more⟩ : ∃ n, d.references (Json.object fields).normalize = n + 1 :=
    Nat.exists_eq_add_one.2 (Nat.mul_pos (Nat.succ_pos _) (Nat.succ_pos _))
  -- a field is a level lower than the record, and a level is worth more than one reference
  have enough : ∀ f ∈ fields, d.references f.2.normalize ≤ n := by
    intro f mem
    have there : (Json.object fields).normalize.get? f.1 = some f.2.normalize := by
      rw [Json.normalize, get?, lookup_normalizeMembers distinct, lookup_of_mem distinct mem]
      rfl
    have inside : f.2.normalize.depth + 1 ≤ (Json.object fields).normalize.depth :=
      depth_get?_lt there
    have fewer : (f.2.normalize.depth + 1 + 1) * (d.definitions.length + 1) ≤ n + 1 :=
      more ▸ Nat.mul_le_mul_right _ (Nat.succ_le_succ inside)
    rw [Nat.succ_mul] at fewer
    unfold SchemaDocument.references
    omega
  have table : given (fields.map fun f => (f.1, some f.2)) = fields := by
    rw [given, List.filterMap_map]
    exact List.filterMap_some
  have keys : ((fields.map fun f => (f.1, some f.2)).map (·.1)).Nodup := by
    rwa [List.map_map]
  have holds := holds_recordOf keys (List.forall₂_map_right_iff.2 (fits n enough))
  rw [table] at holds
  rw [Accepts, validate_eq_ok_iff found, SchemaDocument.violations_eq_nil_iff, more, form]
  exact holds

end Registry

end LiteratureReview
