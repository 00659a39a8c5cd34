/-
  LiteratureReview.Toml.Text
  ──────────────────────────
  Texts between quotes.

  A text in double quotes may hold escapes, a text in single quotes stands as
  it is.  Three quotes of either kind make a text that may go over several
  lines: a line end right after them is not part of it, line ends are plain
  ones, and up to two quotes may stand right before the closing three.
-/
import LiteratureReview.Toml.Scanner

namespace LiteratureReview.Toml

/-! ## §1. Escapes. -/

/-- The value of a hexadecimal digit. -/
def hexDigit? (c : Char) : Option Nat :=
  if c.isDigit then some (c.toNat - 48)
  else if 'a' ≤ c && c ≤ 'f' then some (c.toNat - 87)
  else if 'A' ≤ c && c ≤ 'F' then some (c.toNat - 55)
  else none

/-- The value of hexadecimal digits, exactly so many. -/
def hexValue (count : Nat) (cs : List Char) : Option Nat :=
  if cs.length = count then
    cs.foldlM (fun n c => (hexDigit? c).map fun d => 16 * n + d) 0
  else none

/-- The character of a code point that is one. -/
def charOf (n : Nat) : Option Char :=
  if n < 0xD800 || (0xDFFF < n && n < 0x110000) then some (Char.ofNat n) else none

/-- The letter that an escape stands for, and how many letters it takes. -/
def escaped : List Char → Option (Char × Nat)
  | '"' :: _ => some ('"', 1)
  | '\\' :: _ => some ('\\', 1)
  | 'b' :: _ => some (Char.ofNat 8, 1)
  | 'f' :: _ => some (Char.ofNat 12, 1)
  | 'n' :: _ => some ('\n', 1)
  | 'r' :: _ => some ('\r', 1)
  | 't' :: _ => some ('\t', 1)
  | 'u' :: rest => do return (← charOf (← hexValue 4 (rest.take 4)), 5)
  | 'U' :: rest => do return (← charOf (← hexValue 8 (rest.take 8)), 9)
  | _ => none

/-! ## §2. Texts on one line. -/

/-- The letters up to the closing double quote, and what follows it; letters
of an escape that is done with are passed over. -/
def quotedFrom : Nat → List Char → Option (List Char × List Char)
  | _, [] => none
  | n + 1, _ :: rest => quotedFrom n rest
  | 0, '"' :: rest => some ([], rest)
  | 0, '\\' :: rest => do
    let (c, taken) ← escaped rest
    let (cs, after) ← quotedFrom taken rest
    return (c :: cs, after)
  | 0, c :: rest =>
    if isPlain c then do
      let (cs, after) ← quotedFrom 0 rest
      return (c :: cs, after)
    else none

/-- The letters up to the closing single quote, and what follows it. -/
def literalFrom : List Char → Option (List Char × List Char)
  | [] => none
  | '\'' :: rest => some ([], rest)
  | c :: rest =>
    if isPlain c then (literalFrom rest).map fun r => (c :: r.1, r.2) else none

/-! ## §3. Texts over several lines. -/

/-- How many letters of blanks and line ends are in front. -/
def emptyLines : List Char → Nat
  | '\r' :: '\n' :: rest => 2 + emptyLines rest
  | c :: rest => if isGap c || c = '\n' then 1 + emptyLines rest else 0
  | [] => 0

/-- How many letters a backslash at the end of a line takes away: the line
end and all blanks and line ends behind it. -/
def foldedLine (cs : List Char) : Option Nat :=
  let blanks := (cs.takeWhile isGap).length
  match cs.drop blanks with
  | '\n' :: rest => some (blanks + 1 + emptyLines rest)
  | '\r' :: '\n' :: rest => some (blanks + 2 + emptyLines rest)
  | _ => none

/-- The quotes that belong to the text behind what looks like its end, and
what follows the end. -/
def closing (quote : Char) (cs : List Char) : Option (List Char × List Char) :=
  let quotes := cs.takeWhile (· = quote)
  if quotes.length ≤ 2 then some (quotes, cs.drop quotes.length) else none

/-- The letters up to the three closing quotes, and what follows them;
letters that are done with are passed over. -/
def linesFrom (quote : Char) : Nat → List Char → Option (List Char × List Char)
  | _, [] => none
  | n + 1, _ :: rest => linesFrom quote n rest
  | 0, c :: rest =>
    if [quote, quote, quote].isPrefixOf (c :: rest) then closing quote (rest.drop 2)
    else if c = '\r' then
      if rest.head? = some '\n' then linesFrom quote 0 rest else none
    else if c = '\\' && quote = '"' then
      match foldedLine rest with
      | some n => linesFrom quote n rest
      | none => do
        let (d, taken) ← escaped rest
        let (cs, after) ← linesFrom quote taken rest
        return (d :: cs, after)
    else if c = '\n' || isPlain c then do
      let (cs, after) ← linesFrom quote 0 rest
      return (c :: cs, after)
    else none

/-- Letters without a line end in front. -/
def dropNewline : List Char → List Char
  | '\n' :: rest => rest
  | '\r' :: '\n' :: rest => rest
  | cs => cs

/-! ## §4. Texts. -/

/-- A reader's text. -/
def asText (read : List Char → Option (List Char × List Char)) : Scanner String := fun cs =>
  (read cs).map fun r => (String.ofList r.1, r.2)

/-- A text on one line, in quotes of either kind. -/
def lineText : Scanner String
  | '"' :: rest => asText (quotedFrom 0) rest
  | '\'' :: rest => asText literalFrom rest
  | _ => none

/-- A text in quotes. -/
def text : Scanner String
  | '"' :: '"' :: '"' :: rest => asText (linesFrom '"' 0) (dropNewline rest)
  | '\'' :: '\'' :: '\'' :: rest => asText (linesFrom '\'' 0) (dropNewline rest)
  | cs => lineText cs

end LiteratureReview.Toml
