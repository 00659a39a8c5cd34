/-
  LiteratureReview.Validation.Validator
  ─────────────────────────────────────
  Validating review protocols.

  A document is held against the grammar and its names are looked up; both
  look at the document as it is, and what they find is reported together.
  A name whose place the grammar has complained about already is not
  reported again.  A document without faults is then decoded.
-/
import LiteratureReview.Protocol.Document
import LiteratureReview.Schema.Registry
import LiteratureReview.Validation.References

namespace LiteratureReview.Validator

/-- The grammar of protocols. -/
def grammar : SchemaDocument :=
  (SchemaDocument.read Registry.protocolSchema).toOption.getD ⟨.never, []⟩

/-- The violations of the grammar, each of them once. -/
def grammarErrors (document : Json) : List FieldError :=
  ((grammar.violations document).map Violation.toFieldError).eraseDups

/-- Add an error, unless its place has one already. -/
def addUnlessReported (errors : List FieldError) (e : FieldError) : List FieldError :=
  if errors.any (·.path == e.path) then errors else errors ++ [e]

/-- Everything found wrong with a document. -/
def errors (document : Json) : List FieldError :=
  ((References.findings document).map References.Finding.toFieldError).foldl
    addUnlessReported (grammarErrors document)

/-- A single error about the document as a whole. -/
def atRoot (message : String) : ValidationErrors := ⟨[⟨"", message⟩]⟩

/-- Validate a document. -/
def validate (document : Json) : Except ValidationErrors ReviewProtocol :=
  match errors document with
  | [] =>
    (ReviewProtocol.decode .free document).mapError fun e =>
      atRoot ("invalid protocol: " ++ e.message)
  | found => .error ⟨found⟩

/-- Validate a document that is given as a text. -/
def validateText (text : String) : Except ValidationErrors ReviewProtocol :=
  match Json.parse text with
  | .error e => .error (atRoot ("malformed JSON: " ++ e.message))
  | .ok document => validate document

end LiteratureReview.Validator
