/-
  LiteratureReview.Json.Printer
  ─────────────────────────────
  JSON values as text: on one line without blanks, or indented by two
  spaces a level.

  Only quote, backslash and the control characters below U+0020 are
  escaped; five of those have a letter of their own.
-/
import LiteratureReview.Json.Basic
import LiteratureReview.Text.Quoted

namespace LiteratureReview

open Decimal

/-- A number as JSON writes it. -/
def Number.print : Number → String
  | .int i => toString i
  | .float x => x.render Layout.json

namespace Json

/-- One character inside a JSON string. -/
def escape (c : Char) : String :=
  if c = '"' then "\\\""
  else if c = '\\' then "\\\\"
  else if c.toNat = 8 then "\\b"
  else if c.toNat = 12 then "\\f"
  else if c = '\n' then "\\n"
  else if c = '\r' then "\\r"
  else if c = '\t' then "\\t"
  else if c.toNat < 16 then "\\u000" ++ Text.hex c.toNat
  else if c.toNat < 32 then "\\u00" ++ Text.hex c.toNat
  else c.toString

/-- A text as a JSON string. -/
def printText (s : String) : String :=
  "\"" ++ String.join (s.toList.map escape) ++ "\""

mutual

/-- A value on one line. -/
def print : Json → String
  | .null => "null"
  | .bool b => if b then "true" else "false"
  | .number n => n.print
  | .text s => printText s
  | .list items => "[" ++ printItems items ++ "]"
  | .object members => "\x7b" ++ printMembers members ++ "\x7d"

/-- Elements between commas. -/
def printItems : List Json → String
  | [] => ""
  | [v] => v.print
  | v :: w :: rest => v.print ++ "," ++ printItems (w :: rest)

/-- Members between commas. -/
def printMembers : List (String × Json) → String
  | [] => ""
  | [(k, v)] => printText k ++ ":" ++ v.print
  | (k, v) :: m :: rest => printText k ++ ":" ++ v.print ++ "," ++ printMembers (m :: rest)

end

/-- A line end and the blanks of a level. -/
def newline (level : Nat) : String :=
  "\n" ++ String.ofList (List.replicate (2 * level) ' ')

mutual

/-- A value over several lines, standing at a level. -/
def printAt (level : Nat) : Json → String
  | .null => "null"
  | .bool b => if b then "true" else "false"
  | .number n => n.print
  | .text s => printText s
  | .list [] => "[]"
  | .list (v :: rest) =>
    "[" ++ printItemsAt (level + 1) (v :: rest) ++ newline level ++ "]"
  | .object [] => "\x7b\x7d"
  | .object (m :: rest) =>
    "\x7b" ++ printMembersAt (level + 1) (m :: rest) ++ newline level ++ "\x7d"

/-- Elements, each on a line of its own. -/
def printItemsAt (level : Nat) : List Json → String
  | [] => ""
  | [v] => newline level ++ printAt level v
  | v :: w :: rest => newline level ++ printAt level v ++ "," ++ printItemsAt level (w :: rest)

/-- Members, each on a line of its own. -/
def printMembersAt (level : Nat) : List (String × Json) → String
  | [] => ""
  | [(k, v)] => newline level ++ printText k ++ ": " ++ printAt level v
  | (k, v) :: m :: rest =>
    newline level ++ printText k ++ ": " ++ printAt level v ++ ","
      ++ printMembersAt level (m :: rest)

end

/-- A value over several lines. -/
def printIndented (v : Json) : String :=
  printAt 0 v

end Json

end LiteratureReview
