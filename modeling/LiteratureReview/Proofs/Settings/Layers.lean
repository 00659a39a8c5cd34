/-
  LiteratureReview.Proofs.Settings.Layers
  ───────────────────────────────────────
  Trees that are laid over each other, looked at along one path of keys.

  What a path leads to in two layers is what it leads to in the upper one,
  in the lower one if that has nothing there, and both over each other if
  both have something (`at?_overlay`), provided that the upper layer has each
  key once and tables on the way (`KeysOnce`, `Opens`).  One tree over
  another is a text only if it is that text by itself (`text?_overlay`), so
  of many layers a path leads to the text of the highest that has anything
  there, whatever they hold beside it (`text?_foldl`).
-/
import LiteratureReview.Proofs.Toml.Keys
import LiteratureReview.Settings.Tree

namespace LiteratureReview.Tree

variable {s : Source} {key : String} {t below above : Tree} {old new ms : List (String × Tree)}
  {path : List String}

/-! ## §1. Tables with every key once. -/

/-- A tree whose keys can be looked up. -/
def isTable : Tree → Bool
  | .table .. => true
  | .leaf .. | .list .. => false

/-- No table has a key twice, as far as keys lead; what stands in lists is left out. -/
inductive KeysOnce : Tree → Prop where
  | table {s : Source} {ms : List (String × Tree)} (distinct : (ms.map (·.1)).Nodup)
      (each : ∀ m ∈ ms, KeysOnce m.2) : KeysOnce (.table s ms)
  | plain {t : Tree} (noTable : t.isTable = false) : KeysOnce t

theorem keysOnce_empty : (Tree.table s []).KeysOnce :=
  .table List.nodup_nil nofun

theorem KeysOnce.distinct (once : (Tree.table s ms).KeysOnce) : (ms.map (·.1)).Nodup := by
  cases once with
  | table distinct _ => exact distinct
  | plain noTable => cases noTable

theorem KeysOnce.each (once : (Tree.table s ms).KeysOnce) : ∀ m ∈ ms, m.2.KeysOnce := by
  cases once with
  | table _ each => exact each
  | plain noTable => cases noTable

/-- What a key leads to in such a tree is of the same kind. -/
theorem KeysOnce.get? (once : t.KeysOnce) {u : Tree} (found : t.get? key = some u) :
    u.KeysOnce := by
  cases t with
  | table s ms => exact once.each _ (Json.mem_of_lookup found)
  | leaf _ _ => cases found
  | list _ _ => cases found

theorem put_eq_setKey (key : String) (t : Tree) (ms : List (String × Tree)) :
    put key t ms = setKey key t ms := by
  induction ms with
  | nil => rfl
  | cons m rest ih => rw [put, setKey, ih]

theorem KeysOnce.put (once : (Tree.table s ms).KeysOnce) (new : t.KeysOnce) :
    (Tree.table s (Tree.put key t ms)).KeysOnce := by
  rw [put_eq_setKey]
  refine .table (nodup_setKey once.distinct) fun m mem => ?_
  rcases mem_setKey mem with rfl | there
  · exact new
  · exact once.each m there

/-- A tree at the end of a path has every key once if it has them by itself. -/
theorem KeysOnce.nest (once : t.KeysOnce) : (Tree.nest s path t).KeysOnce := by
  induction path with
  | nil => exact once
  | cons key rest ih =>
    exact .table (List.nodup_singleton key) fun m mem => (List.mem_singleton.1 mem) ▸ ih

/-- Members that may be laid over others of the kind keep every key once. -/
theorem KeysOnce.overlayMembers (lower : (Tree.table s old).KeysOnce)
    (each : ∀ m ∈ new, m.2.KeysOnce)
    (merges : ∀ m ∈ new, ∀ b : Tree, b.KeysOnce → (Tree.overlay b m.2).KeysOnce) :
    (Tree.table s (Tree.overlayMembers old new)).KeysOnce := by
  induction new generalizing old with
  | nil => exact lower
  | cons m rest ih =>
    obtain ⟨key, t⟩ := m
    obtain ⟨here, later⟩ := List.forall_mem_cons.1 each
    obtain ⟨merge, merges⟩ := List.forall_mem_cons.1 merges
    rw [Tree.overlayMembers]
    refine ih (lower.put ?_) later merges
    split
    next b found => exact merge b (lower.get? found)
    next => exact here

/-- **Layers keep every key once.** -/
theorem KeysOnce.overlay (upper : above.KeysOnce) (lower : below.KeysOnce) :
    (Tree.overlay below above).KeysOnce := by
  induction upper generalizing below with
  | @table s ms distinct each ih =>
    -- only a table over a table is put together, anything else is taken as a whole
    cases below with
    | table r old =>
      have lower : (Tree.table s old).KeysOnce := .table lower.distinct lower.each
      rw [Tree.overlay]
      exact lower.overlayMembers each fun m mem b once => ih m mem once
    | leaf _ _ => exact .table distinct each
    | list _ _ => exact .table distinct each
  | @plain t noTable =>
    cases t with
    | table _ _ => cases noTable
    | leaf _ _ => exact .plain rfl
    | list _ _ => exact .plain rfl

/-! ## §2. What a path leads to. -/

/-- Members over others: a key that both have leads to one tree over the other. -/
theorem lookup_overlayMembers (distinct : (new.map (·.1)).Nodup) :
    (overlayMembers old new).lookup key =
      Option.merge overlay (old.lookup key) (new.lookup key) := by
  -- by the members that are put in, into a table that grows meanwhile
  induction new generalizing old with
  | nil => exact Option.merge_none_right.symm
  | cons m rest ih =>
    obtain ⟨k, t⟩ := m
    obtain ⟨fresh, later⟩ := List.nodup_cons.1 distinct
    rw [overlayMembers, ih later, put_eq_setKey, lookup_setKey, Json.lookup_cons_ite]
    by_cases same : key = k
    · subst same
      -- the key comes once, so what is put in here stays
      rw [if_pos rfl, if_pos rfl, Json.lookup_eq_none_of_not_mem fresh]
      cases old.lookup key <;> rfl
    · rw [if_neg same, if_neg same]

theorem get?_overlay (table : above.isTable = true) (once : above.KeysOnce) :
    (overlay below above).get? key = Option.merge overlay (below.get? key) (above.get? key) := by
  cases above with
  | leaf _ _ => cases table
  | list _ _ => cases table
  | table s new =>
    cases below with
    | table r old => exact lookup_overlayMembers once.distinct
    | leaf _ _ => exact Option.merge_none_left.symm
    | list _ _ => exact Option.merge_none_left.symm

theorem isTable_overlay : (overlay below above).isTable = above.isTable := by
  cases above with
  | table s new => cases below <;> rfl
  | leaf _ _ => rfl
  | list _ _ => rfl

/-- On the way along the path there are tables, as far as it leads. -/
def Opens (t : Tree) : List String → Prop
  | [] => True
  | key :: rest => t.isTable = true ∧ ∀ u, t.get? key = some u → u.Opens rest

/-- Tables at every place on the way are tables on the way. -/
theorem opens_of_prefixes
    (tables : ∀ keys, keys <+: path → keys ≠ path → ∀ u, t.at? keys = some u → u.isTable = true) :
    t.Opens path := by
  induction path generalizing t with
  | nil => trivial
  | cons key rest ih =>
    refine ⟨tables [] List.nil_prefix (List.cons_ne_nil key rest).symm t rfl, fun u found => ?_⟩
    refine ih fun keys front shorter w there => ?_
    refine tables (key :: keys) (List.prefix_cons_inj key |>.2 front) (fun same => ?_) w ?_
    · exact shorter (List.cons.inj same).2
    · rw [at?, found]
      exact there

/-- **A path leads to what it leads to in both layers, over each other.** -/
theorem at?_overlay (once : above.KeysOnce) (opens : above.Opens path) :
    (overlay below above).at? path = Option.merge overlay (below.at? path) (above.at? path) := by
  induction path generalizing below above with
  | nil => rfl
  | cons key rest ih =>
    obtain ⟨table, further⟩ := opens
    rw [at?, at?, at?, get?_overlay table once]
    -- the path goes on in both layers, or in one of them as if it were alone
    cases upper : above.get? key with
    | none => rw [Option.merge_none_right, Option.bind_none, Option.merge_none_right]
    | some u =>
      cases below.get? key with
      | none => rw [Option.merge_none_left, Option.bind_none, Option.merge_none_left]
      | some b => exact ih (once.get? upper) (further u upper)

/-- On the way along the path there are tables if there are in each layer. -/
theorem Opens.overlay (upper : above.Opens path) (once : above.KeysOnce)
    (lower : below.Opens path) : (overlay below above).Opens path := by
  induction path generalizing below above with
  | nil => trivial
  | cons key rest ih =>
    obtain ⟨table, further⟩ := upper
    refine ⟨isTable_overlay.trans table, fun u found => ?_⟩
    rw [get?_overlay table once] at found
    cases up : above.get? key with
    | none =>
      rw [up, Option.merge_none_right] at found
      exact lower.2 u found
    | some t =>
      rw [up] at found
      cases down : below.get? key with
      | none =>
        rw [down, Option.merge_none_left] at found
        exact further u (up.trans found)
      | some b =>
        rw [down] at found
        cases found
        exact ih (further t up) (once.get? up) (lower.2 b down)

/-! ## §3. The highest layer that has something. -/

/-- A layer as a path is followed through it. -/
structure Layer (t : Tree) (path : List String) : Prop where
  once : t.KeysOnce
  opens : t.Opens path

theorem KeysOnce.foldl {ts : List Tree} (each : ∀ t ∈ ts, t.KeysOnce) (base : t.KeysOnce) :
    (ts.foldl Tree.overlay t).KeysOnce := by
  induction ts generalizing t with
  | nil => exact base
  | cons u rest ih =>
    obtain ⟨first, later⟩ := List.forall_mem_cons.1 each
    exact ih later (first.overlay base)

theorem Opens.foldl {ts : List Tree} (layers : ∀ t ∈ ts, t.Layer path) (base : t.Opens path) :
    (ts.foldl Tree.overlay t).Opens path := by
  induction ts generalizing t with
  | nil => exact base
  | cons u rest ih =>
    obtain ⟨first, later⟩ := List.forall_mem_cons.1 layers
    exact ih later (first.opens.overlay first.once base)

/-- The text that a tree is. -/
def text? : Tree → Option String
  | .leaf _ (.text s) => some s
  | _ => none

/-- What lies below does not matter to the text that a tree is. -/
theorem text?_overlay : (overlay below above).text? = above.text? := by
  cases above with
  | table s new => cases below <;> rfl
  | leaf _ _ => rfl
  | list _ _ => rfl

theorem map_text?_merge {a b : Option Tree} :
    (Option.merge overlay a b).map text? = (b.or a).map text? := by
  cases b with
  | none => rw [Option.merge_none_right, Option.none_or]
  | some t =>
    cases a with
    | none => rfl
    | some below => exact congrArg some text?_overlay

/-- **In many layers a path leads to the text of the highest that has anything there.** -/
theorem text?_foldl {ts : List Tree} (layers : ∀ t ∈ ts, t.Layer path) :
    ((ts.foldl overlay t).at? path).map text? =
      ((ts.reverse.findSome? (·.at? path)).or (t.at? path)).map text? := by
  induction ts generalizing t with
  | nil => rfl
  | cons u rest ih =>
    obtain ⟨first, later⟩ := List.forall_mem_cons.1 layers
    rw [List.foldl_cons, ih later, List.reverse_cons, List.findSome?_append,
      List.findSome?_singleton, Option.or_assoc, Option.map_or, Option.map_or,
      at?_overlay first.once first.opens, map_text?_merge]

end LiteratureReview.Tree
