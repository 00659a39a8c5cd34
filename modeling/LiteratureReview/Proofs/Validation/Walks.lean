/-
  LiteratureReview.Proofs.Validation.Walks
  ────────────────────────────────────────
  The walks through the categories visit the same ones.

  Names are listed off the typed tree, off its flattened form, and off the
  document, where whatever has not the form of a category is passed over;
  and the categories are counted.  Each walk has a recursion of its own.
  Entries of the flattened tree carry the names of the typed one
  (`names_flattenForest`), and the document is seen through what is written
  of its protocol, so that all of them agree (`walks_agree`).
-/
import LiteratureReview.Proofs.Extraction.Recovery
import LiteratureReview.Proofs.Validation.Mentions

namespace LiteratureReview

open Json Layout Category

/-! ## §1. Flattened names. -/

mutual

/-- The entries of a tree have its names, each before those below it. -/
theorem names_flattenTree (start : Nat) (parentIndex : Option Nat) (parent : Option String) :
    (c : Category) →
      (flattenTree start parentIndex parent c).map (·.name) = c.names.map (·.text)
  | .node h k none => rfl
  | .node h k (some children) => by
    rw [flattenTree, List.map_cons, names_flattenForest, names, List.map_cons]
    rfl

/-- The entries of a forest have its names. -/
theorem names_flattenForest (start : Nat) (parentIndex : Option Nat) (parent : Option String) :
    (cs : List Category) →
      (flattenForest start parentIndex parent cs).map (·.name) =
        (Category.namesOf cs).map (·.text)
  | [] => rfl
  | c :: rest => by
    rw [flattenForest, List.map_append, names_flattenTree, names_flattenForest, Category.namesOf,
      List.map_append]

end

/-! ## §2. Documents. -/

namespace ReviewProtocol

variable {p : ReviewProtocol} {v : Json}

theorem names_flatten (p : ReviewProtocol) :
    (flatten p.categories).map (·.name) = p.categoryNames.map (·.text) :=
  names_flattenForest 0 none none p.categories

theorem length_categoryNames (p : ReviewProtocol) :
    p.categoryNames.length = (p.categories.map nodeCount).sum := by
  have same := congrArg List.length p.names_flatten
  rw [List.length_map, List.length_map, length_flatten, nodeCounts_eq_sum] at same
  exact same.symm

/-- The names collected from a document are those of its protocol. -/
theorem categoryNames_document (proper : v.IsProper)
    (clean : Validator.grammarErrors v = []) (read : decode .free v = .ok p) :
    References.categoryNames v = p.categoryNames.map (·.text) := by
  have written : canon (.record .document) v = p.encode.normalize :=
    canon_of_decode proper (Validator.grammarErrors_eq_nil_iff.1 clean) read
  rw [← References.categoryNames_canon proper, written, categoryNames_encode]

/-- **All walks through the categories of a document visit the same ones in the same order**:
the names of its protocol are those of the flattened entries one by one, there are as many as
categories are counted, and the same names are collected from the document itself. -/
theorem walks_agree (proper : v.IsProper) (clean : Validator.grammarErrors v = [])
    (read : decode .free v = .ok p) :
    p.categoryNames.map (·.text) = (flatten p.categories).map (·.name) ∧
      p.categoryNames.length = (p.categories.map nodeCount).sum ∧
        References.categoryNames v = (flatten p.categories).map (·.name) :=
  ⟨p.names_flatten.symm, p.length_categoryNames,
    (categoryNames_document proper clean read).trans p.names_flatten.symm⟩

/-- Three levels of categories, where a name is used again below its own category, and a list of
children is null. -/
def terracedDocument : Json :=
  .object
    [("category", .list
      [.object
        [("category_type", .text "List"), ("mandatory", .bool true), ("name", .text "site"),
         ("sub_categories", .list
          [.object
            [("category_type", .text "Simple"), ("mandatory", .bool false),
             ("name", .text "site"), ("sub_categories", .null), ("type", .text "text")],
           .object
            [("category_type", .text "DynamicList"), ("depends_on", .text "site"),
             ("dynamic_subtype", .text "Dependent"), ("mandatory", .bool true),
             ("name", .text "ward"),
             ("sub_categories", .list [.object
               [("category_type", .text "Simple"), ("mandatory", .bool true),
                ("name", .text "beds"), ("type", .text "int")]])]]),
         ("values", .list [.object [("name", .text "north")], .object [("name", .text "south")]])],
       .object
        [("category_type", .text "Simple"), ("mandatory", .bool true), ("name", .text "year"),
         ("type", .text "int")]]),
     ("project", .object [("name", .text "A review"), ("short_name", .text "Review")])]

theorem walks_agree_terraced :
    ∃ p, decode .free terracedDocument = .ok p ∧
      (flatten p.categories).map (·.name) = ["site", "site", "ward", "beds", "year"] ∧
        p.categoryNames.length = 5 ∧
          References.categoryNames terracedDocument = ["site", "site", "ward", "beds", "year"] := by
  have clean : Validator.grammarErrors terracedDocument = [] := by
    rw [Validator.grammarErrors, ProtocolGrammar.grammar_eq]
    decide +kernel
  obtain ⟨p, read, count⟩ : ∃ p, decode .free terracedDocument = .ok p ∧
      (p.categories.map nodeCount).sum = 5 := ⟨_, rfl, rfl⟩
  have collected : References.categoryNames terracedDocument =
      ["site", "site", "ward", "beds", "year"] := by decide +kernel
  obtain ⟨-, length, same⟩ := walks_agree (by decide) clean read
  exact ⟨p, read, same.symm.trans collected, length.trans count, collected⟩

end ReviewProtocol

end LiteratureReview
