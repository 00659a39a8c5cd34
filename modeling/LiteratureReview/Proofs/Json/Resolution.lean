/-
  LiteratureReview.Proofs.Json.Resolution
  ───────────────────────────────────────
  Following the text of a pointer.

  A text is followed as it stands: it is split at its slashes, and what is
  between two of them is a key of an object or the number of an element,
  whichever the value at hand asks for.  The text of a place leads to what is
  at that place (`resolve?_render`).
-/
import LiteratureReview.Proofs.Json.Pointers

namespace LiteratureReview

namespace Json

/-! ## §1. Texts of pointers. -/

/-- A key whose two replaced letters are put back. -/
def unescape : List Char → List Char
  | '~' :: '0' :: rest => '~' :: unescape rest
  | '~' :: '1' :: rest => '/' :: unescape rest
  | c :: rest => c :: unescape rest
  | [] => []

/-- The number that is written in decimal digits, without zeros in front. -/
def number? (digits : List Char) : Option Nat :=
  if digits = ['0'] ∨ digits ≠ [] ∧ digits.head? ≠ some '0' ∧ digits.all Char.isDigit then
    some (Nat.ofDigitChars 10 digits 0)
  else none

/-- The value one token further in. -/
def follow? (token : List Char) : Json → Option Json
  | .object members => members.lookup (String.ofList (unescape token))
  | .list items => (number? token).bind (items[·]?)
  | .null | .bool _ | .number _ | .text _ => none

/-- The value that tokens lead to, one after the other. -/
def followAll? : List (List Char) → Json → Option Json
  | [], v => some v
  | token :: rest, v => (v.follow? token).bind (followAll? rest)

/-- The value that a pointer leads to: the value itself for the empty text, and otherwise what
the texts behind its slashes lead to. -/
def resolve? (v : Json) (path : String) : Option Json :=
  match path.toList.splitOn '/' with
  | [] :: tokens => followAll? tokens v
  | _ => none

/-! ## §2. Texts of places. -/

theorem unescape_letter (c : Char) (rest : List Char) :
    unescape (Step.letter c ++ rest) = c :: unescape rest := by
  unfold Step.letter
  by_cases tilde : c = '~'
  · subst tilde
    rfl
  · rw [if_neg tilde]
    by_cases slash : c = '/'
    · subst slash
      rfl
    · rw [if_neg slash, List.singleton_append, unescape]
      · rintro rest rfl
        exact absurd rfl tilde
      · rintro rest rfl
        exact absurd rfl tilde

theorem unescape_escape (key : String) :
    String.ofList (unescape (Step.escape key).toList) = key := by
  have letters : ∀ cs : List Char, unescape (cs.flatMap Step.letter) = cs := by
    intro cs
    induction cs with
    | nil => rfl
    | cons c rest ih => rw [List.flatMap_cons, unescape_letter, ih]
  rw [Step.toList_escape, letters, String.ofList_toList]

theorem number?_digits (i : Nat) : number? (toString i).toList = some i := by
  have digits : (toString i).toList = Nat.toDigits 10 i := Nat.toList_repr
  have back : Nat.ofDigitChars 10 (Nat.toDigits 10 i) 0 = i := by simp
  have form : Nat.toDigits 10 i = ['0'] ∨ Nat.toDigits 10 i ≠ [] ∧
      (Nat.toDigits 10 i).head? ≠ some '0' ∧ (Nat.toDigits 10 i).all Char.isDigit = true := by
    rcases Nat.eq_zero_or_pos i with rfl | pos
    · exact .inl rfl
    · obtain ⟨c, cs, written, nonzero⟩ := toDigits_head_ne_zero pos
      refine .inr ⟨?_, ?_, List.all_eq_true.2 fun d mem => isDigit_of_mem_toDigits mem⟩
      · rw [written]
        exact List.cons_ne_nil c cs
      · rw [written]
        exact fun same => nonzero (Option.some.inj same)
  rw [number?, digits, if_pos form, back]

theorem follow?_body {v w : Json} {s : Step} (step : v.step? s = some w) :
    v.follow? s.body = some w := by
  cases s with
  | member key =>
    cases v with
    | object members =>
      rw [Step.body, follow?, unescape_escape]
      exact step
    | _ => cases step
  | element index =>
    cases v with
    | list items =>
      rw [Step.body, follow?, number?_digits]
      exact step
    | _ => cases step

theorem splitOn_render (s : Step) (p : Pointer) :
    (s.body ++ (Pointer.render p).toList).splitOn '/' = (s :: p).map Step.body := by
  induction p generalizing s with
  | nil =>
    have ends : (Pointer.render []).toList = [] := rfl
    rw [ends, List.append_nil, List.splitOn_eq_singleton s.slash_not_mem_body]
    rfl
  | cons t p ih =>
    rw [toList_render_cons, List.splitOn_append_cons_self_of_not_mem s.slash_not_mem_body, ih t]
    rfl

theorem followAll?_bodies {v w : Json} {p : Pointer} (stands : v.at? p = some w) :
    followAll? (p.map Step.body) v = some w := by
  induction p generalizing v with
  | nil => exact stands
  | cons s p ih =>
    obtain ⟨u, step, rest⟩ := Option.bind_eq_some_iff.1 stands
    rw [List.map_cons, followAll?, follow?_body step, Option.bind_some, ih rest]

/-- **The text of a place leads to what is there.** -/
theorem resolve?_render {v w : Json} {p : Pointer} (stands : v.at? p = some w) :
    v.resolve? p.render = some w := by
  cases p with
  | nil => exact stands
  | cons s p =>
    have tokens : (Pointer.render (s :: p)).toList.splitOn '/' = [] :: (s :: p).map Step.body := by
      rw [toList_render_cons, ← splitOn_render]
      exact List.splitOn_append_cons_self_of_not_mem List.not_mem_nil _
    rw [resolve?, tokens]
    exact followAll?_bodies stands

end Json

end LiteratureReview
