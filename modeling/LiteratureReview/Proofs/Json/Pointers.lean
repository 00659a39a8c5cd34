/-
  LiteratureReview.Proofs.Json.Pointers
  ─────────────────────────────────────
  The text of a pointer says which place of a value is meant.

  In a text, `/0` can be the first element of a list or the member under the
  key `0`.  In a value it is one of the two: what a pointer goes through is a
  list or an object.  So two places of one value that are written the same
  are the same (`eq_of_render`), and one is below another when its text goes
  on behind the other's (`isAtOrBelow_iff`).
-/
import LiteratureReview.Json.Pointer
import LiteratureReview.Proofs.Json.Numerals
import Mathlib.Data.List.Basic
import Mathlib.Data.String.Basic

namespace LiteratureReview

namespace Step

/-! ## §1. Escaping. -/

/-- A letter with the two replaced that have a meaning. -/
def letter (c : Char) : List Char :=
  if c = '~' then ['~', '0'] else if c = '/' then ['~', '1'] else [c]

theorem toList_escape (key : String) : (escape key).toList = key.toList.flatMap letter := by
  rw [escape, String.toList_join, List.flatMap_map]
  refine List.flatMap_congr fun c _ => ?_
  unfold letter
  split
  · rfl
  · split
    · rfl
    · exact String.toList_singleton c

theorem slash_not_mem_letter (c : Char) : '/' ∉ letter c := by
  unfold letter
  split
  · decide
  · split
    · decide
    next other => simpa using Ne.symm other

theorem letter_ne_nil (c : Char) : letter c ≠ [] := by
  unfold letter
  split
  · nofun
  · split <;> nofun

/-- No letter is written as the beginning of another one. -/
theorem letter_append_inj {c d : Char} {xs ys : List Char}
    (same : letter c ++ xs = letter d ++ ys) : c = d ∧ xs = ys := by
  unfold letter at same
  grind

theorem flatMap_letter_injective {cs ds : List Char}
    (same : cs.flatMap letter = ds.flatMap letter) : cs = ds := by
  induction cs generalizing ds with
  | nil =>
    cases ds with
    | nil => rfl
    | cons d ds =>
      rw [List.flatMap_cons] at same
      exact absurd (List.append_eq_nil_iff.1 same.symm).1 (letter_ne_nil d)
  | cons c cs ih =>
    cases ds with
    | nil =>
      rw [List.flatMap_cons] at same
      exact absurd (List.append_eq_nil_iff.1 same).1 (letter_ne_nil c)
    | cons d ds =>
      rw [List.flatMap_cons, List.flatMap_cons] at same
      obtain ⟨rfl, rest⟩ := letter_append_inj same
      rw [ih rest]

theorem escape_injective {key key' : String} (same : escape key = escape key') : key = key' := by
  have letters := congrArg String.toList same
  rw [toList_escape, toList_escape] at letters
  exact String.toList_injective (flatMap_letter_injective letters)

/-! ## §2. Steps. -/

/-- The letters of a step behind its slash. -/
def body : Step → List Char
  | .member key => (escape key).toList
  | .element index => (toString index).toList

theorem toList_render (s : Step) : s.render.toList = '/' :: s.body := by
  cases s with
  | member key => exact String.toList_append
  | element index => exact String.toList_append

/-- No slash stands inside a step. -/
theorem slash_not_mem_body (s : Step) : '/' ∉ s.body := by
  cases s with
  | member key =>
    intro mem
    rw [body, toList_escape, List.mem_flatMap] at mem
    obtain ⟨c, -, inside⟩ := mem
    exact slash_not_mem_letter c inside
  | element index =>
    intro mem
    have digit : '/' ∈ Nat.toDigits 10 index := by rwa [← Nat.toList_repr]
    cases isDigit_of_mem_toDigits digit

theorem index_injective {i j : Nat} (same : toString i = toString j) : i = j := by
  have digits := congrArg String.toList same
  have back := congrArg (Nat.ofDigitChars 10 · 0) digits
  simpa [Nat.toList_repr] using back

/-- **Steps into one value are told apart by their texts.** -/
theorem eq_of_body {v a b : Json} {s t : Step} (left : v.step? s = some a)
    (right : v.step? t = some b) (same : s.body = t.body) : s = t := by
  cases s with
  | member key =>
    cases t with
    | member key' => rw [escape_injective (String.toList_injective same)]
    | element index => cases v <;> first | cases left | cases right
  | element index =>
    cases t with
    | member key => cases v <;> first | cases left | cases right
    | element index' => rw [index_injective (String.toList_injective same)]

end Step

/-! ## §3. Places. -/

/-- The letters of a pointer: those of its first step, and then those of the others, which
begin with a slash if there are any. -/
theorem toList_render_cons (s : Step) (p : Pointer) :
    (Pointer.render (s :: p)).toList = '/' :: (s.body ++ (Pointer.render p).toList) := by
  unfold Pointer.render
  rw [String.toList_join, String.toList_join, List.map_cons, List.flatMap_cons,
    Step.toList_render, List.cons_append]

theorem head_toList_render (p : Pointer) :
    (Pointer.render p).toList = [] ∨ ∃ rest, (Pointer.render p).toList = '/' :: rest := by
  cases p with
  | nil => exact .inl rfl
  | cons s p => exact .inr ⟨_, toList_render_cons s p⟩

/-- Texts without a slash end where the slash is. -/
theorem append_inj_of_slash {xs ys front back : List Char} (left : '/' ∉ xs) (right : '/' ∉ ys)
    (first : front = [] ∨ ∃ rest, front = '/' :: rest)
    (second : back = [] ∨ ∃ rest, back = '/' :: rest) (same : xs ++ front = ys ++ back) :
    xs = ys ∧ front = back := by
  -- such a text is what comes before the first slash
  have upTo : ∀ zs tail : List Char, '/' ∉ zs → (tail = [] ∨ ∃ rest, tail = '/' :: rest) →
      (zs ++ tail).takeWhile (· != '/') = zs := by
    intro zs tail lacks begins
    have plain : ∀ c ∈ zs, (c != '/') = true := by
      intro c mem
      rw [bne_iff_ne]
      rintro rfl
      exact lacks mem
    rw [List.takeWhile_append_of_pos plain]
    rcases begins with rfl | ⟨rest, rfl⟩ <;> simp
  have xs_eq := upTo xs front left first
  rw [same, upTo ys back right second] at xs_eq
  subst xs_eq
  exact ⟨rfl, List.append_cancel_left same⟩

/-- Two steps into one value with one text are the same step, and lead to the same value. -/
theorem Pointer.same_step {v a b : Json} {s t : Step} {p q : Pointer}
    (left : v.at? (s :: p) = some a) (right : v.at? (t :: q) = some b)
    (bodies : s.body = t.body) : s = t ∧ ∃ x : Json, x.at? p = some a ∧ x.at? q = some b := by
  obtain ⟨x, inside, left⟩ := Option.bind_eq_some_iff.1 left
  obtain ⟨y, inside', right⟩ := Option.bind_eq_some_iff.1 right
  obtain rfl := Step.eq_of_body inside inside' bodies
  obtain rfl := Option.some.inj (inside.symm.trans inside')
  exact ⟨rfl, x, left, right⟩

/-- **Two places of one value that are written the same are the same.** -/
theorem Pointer.eq_of_render {v a b : Json} {p q : Pointer} (left : v.at? p = some a)
    (right : v.at? q = some b) (same : p.render = q.render) : p = q := by
  induction p generalizing v q with
  | nil =>
    cases q with
    | nil => rfl
    | cons t q =>
      have letters := congrArg String.toList same
      rw [toList_render_cons] at letters
      cases letters
  | cons s p ih =>
    have letters := congrArg String.toList same
    cases q with
    | nil =>
      rw [toList_render_cons] at letters
      cases letters
    | cons t q =>
      rw [toList_render_cons, toList_render_cons] at letters
      obtain ⟨bodies, rest⟩ := append_inj_of_slash s.slash_not_mem_body t.slash_not_mem_body
        (head_toList_render p) (head_toList_render q) (List.cons.inj letters).2
      obtain ⟨rfl, x, left, right⟩ := same_step left right bodies
      rw [ih left right (String.toList_injective rest)]

/-! ## §4. Places below others. -/

/-- The text of a place is another one, or goes on behind it with a step. -/
def IsAtOrBelow (base path : String) : Prop :=
  path = base ∨ base.toList ++ ['/'] <+: path.toList

instance (base path : String) : Decidable (IsAtOrBelow base path) :=
  inferInstanceAs (Decidable (path = base ∨ base.toList ++ ['/'] <+: path.toList))

theorem Pointer.toList_render_append (p q : Pointer) :
    (render (p ++ q)).toList = (render p).toList ++ (render q).toList := by
  rw [render, render, render, List.map_append, String.join_append, String.toList_append]

theorem Pointer.isAtOrBelow_of_prefix {p q : Pointer} (below : p <+: q) :
    IsAtOrBelow p.render q.render := by
  obtain ⟨rest, rfl⟩ := below
  cases rest with
  | nil => exact .inl (by rw [List.append_nil])
  | cons s rest =>
    refine .inr ⟨s.body ++ (Pointer.render rest).toList, ?_⟩
    rw [toList_render_append, toList_render_cons, List.append_assoc, List.singleton_append]

/-- **Of one value, the places below another one are told by their texts.** -/
theorem Pointer.isAtOrBelow_iff {v a b : Json} {p q : Pointer} (left : v.at? p = some a)
    (right : v.at? q = some b) : IsAtOrBelow p.render q.render ↔ p <+: q := by
  refine ⟨fun below => ?_, isAtOrBelow_of_prefix⟩
  rcases below with same | ⟨tail, longer⟩
  · rw [eq_of_render left right same.symm]
  -- step by step, up to the end of the shorter one
  · induction p generalizing v q with
    | nil => exact List.nil_prefix
    | cons s p ih =>
      rw [toList_render_cons] at longer
      cases q with
      | nil => cases longer
      | cons t q =>
        rw [toList_render_cons] at longer
        have letters : s.body ++ ((render p).toList ++ ['/'] ++ tail) =
            t.body ++ (render q).toList := by
          simpa [List.append_assoc] using longer
        have slash : (render p).toList ++ ['/'] ++ tail = [] ∨
            ∃ rest, (render p).toList ++ ['/'] ++ tail = '/' :: rest := by
          rcases head_toList_render p with none | ⟨rest, some⟩
          · exact .inr ⟨tail, by rw [none]; rfl⟩
          · exact .inr ⟨rest ++ ['/'] ++ tail, by rw [some]; rfl⟩
        obtain ⟨bodies, rest⟩ := append_inj_of_slash s.slash_not_mem_body t.slash_not_mem_body
          slash (head_toList_render q) letters
        obtain ⟨rfl, x, left, right⟩ := same_step left right bodies
        exact List.cons_prefix_cons.2 ⟨rfl, ih left right rest⟩

/-- The value at a place is reached in two parts. -/
theorem Json.at?_append {v : Json} (p q : Pointer) :
    v.at? (p ++ q) = (v.at? p).bind fun w => w.at? q := by
  induction p generalizing v with
  | nil => rfl
  | cons s p ih =>
    rw [List.cons_append, Json.at?, Json.at?, Option.bind_assoc]
    exact congrArg _ (funext fun w => ih)

end LiteratureReview
