/-
  LiteratureReview.Protocol.Scalar
  ────────────────────────────────
  The constrained texts of a protocol document: identifiers, and texts that
  are not empty.
-/
import LiteratureReview.Json.Encoding
import LiteratureReview.Json.Shape

namespace LiteratureReview

/-- What is wrong with a piece of data. -/
inductive DataError where
  /-- A text is not an identifier. -/
  | invalidIdentifier (value : String)
  /-- A condition on the data does not hold. -/
  | invalid (reason : String)
  /-- Anything else. -/
  | other (reason : String)
  deriving DecidableEq, Repr

/-- The wording of a data error. -/
def DataError.message : DataError → String
  | .invalidIdentifier value => "Invalid identifier '" ++ value
      ++ "': expected a letter or underscore followed by letters, digits or underscores"
  | .invalid reason => "Validation error: " ++ reason
  | .other reason => reason

/-! ## §1. Identifiers. -/

/-- A letter of the basic alphabet, or an underscore. -/
def startsIdentifier (c : Char) : Bool :=
  c.isAlpha || c == '_'

/-- A letter or digit of the basic alphabet, or an underscore. -/
def continuesIdentifier (c : Char) : Bool :=
  c.isAlphanum || c == '_'

/-- A letter or underscore, then letters, digits or underscores. -/
def isIdentifier (s : String) : Bool :=
  match s.toList with
  | c :: rest => startsIdentifier c && rest.all continuesIdentifier
  | [] => false

/-- A name that can be used as a key. -/
structure Identifier where
  text : String
  valid : isIdentifier text = true
  deriving DecidableEq, Repr

namespace Identifier

/-- The identifier a text spells. -/
def parse (s : String) : Except DataError Identifier :=
  if h : isIdentifier s = true then .ok ⟨s, h⟩ else .error (.invalidIdentifier s)

/-- Read an identifier. -/
def decode : Decoder Identifier :=
  Decoder.checkedText "a string" fun s => (parse s).mapError DataError.message

/-- An identifier inside a text. -/
def shape : Shape := .textOf decode

/-- Write an identifier. -/
def encode (i : Identifier) : Json := .text i.text

end Identifier

/-! ## §2. Texts that are not empty. -/

/-- A text of at least one character. -/
structure NonEmptyText where
  text : String
  nonempty : text ≠ ""
  deriving DecidableEq, Repr

namespace NonEmptyText

/-- The text, unless it is empty. -/
def parse (s : String) : Except DataError NonEmptyText :=
  if h : s = "" then .error (.invalid "text must not be empty") else .ok ⟨s, h⟩

/-- Read a text that is not empty. -/
def decode : Decoder NonEmptyText :=
  Decoder.checkedText "a string" fun s => (parse s).mapError DataError.message

/-- A text that is not empty, inside a text. -/
def shape : Shape := .textOf decode

/-- Write a text that is not empty. -/
def encode (t : NonEmptyText) : Json := .text t.text

end NonEmptyText

end LiteratureReview
