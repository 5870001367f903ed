import SqlDialect.Toml.Reader

/-!
This module contains the strings of TOML documents. A string in double quotes has escapes, one in
single quotes has none. Three quotes enclose a text of several lines.
-/

namespace SqlDialect
namespace Toml
namespace Quotation

open Reader

def hexValue? (c : Char) : Option Nat :=
  if c.isDigit then
    some (c.toNat - '0'.toNat)
  else if 'a' ≤ c ∧ c ≤ 'f' then
    some (c.toNat - 'a'.toNat + 10)
  else if 'A' ≤ c ∧ c ≤ 'F' then
    some (c.toNat - 'A'.toNat + 10)
  else
    none

def numbered (count : Nat) : Reader (List Char) := fun cs => do
  guard (count ≤ cs.length)
  let n ← (cs.take count).foldlM (fun n c => return 16 * n + (← hexValue? c)) 0
  guard n.isValidChar
  return ([Char.ofNat n], cs.drop count)

def escape : Reader (List Char) := do
  match ← one fun _ => true with
  | 'b' => return ['\x08']
  | 't' => return ['\t']
  | 'n' => return ['\n']
  | 'f' => return ['\x0c']
  | 'r' => return ['\r']
  | 'e' => return ['\x1b']
  | '"' => return ['"']
  | '\\' => return ['\\']
  | 'x' => numbered 2
  | 'u' => numbered 4
  | 'U' => numbered 8
  | _ => failure

def lineBreak : Reader (List Char) := do
  spaces
  discard newline
  discard (many ((discard (one isSpace)) <|> discard newline))
  return []

def plain (except : Char → Bool) : Reader (List Char) := do
  let c ← one fun c => !isControl c && !except c
  let cs ← run fun c => !isControl c && !except c
  return c :: cs

def innerQuotes (quote : Char) : Reader (List Char) := do
  let quotes ← run (· == quote)
  guard (0 < quotes.length ∧ quotes.length < 3)
  return quotes

/--
The end of a text of several lines. Up to two quotes more than three belong to the text.
-/
def closingQuotes (quote : Char) : Reader (List Char) := do
  let quotes ← run (· == quote)
  guard (3 ≤ quotes.length ∧ quotes.length ≤ 5)
  return quotes.drop 3

def basic : Reader String := do
  text "\""
  let pieces ← many (plain (fun c => c == '"' || c == '\\') <|> (do text "\\"; escape))
  text "\""
  return String.ofList pieces.flatten

def literal : Reader String := do
  text "'"
  let piece ← run fun c => !isControl c && c != '\''
  text "'"
  return String.ofList piece

def multilineBasic : Reader String := do
  text "\"\"\""
  discard (optional newline)
  let pieces ← many <|
    plain (fun c => c == '"' || c == '\\')
      <|> newline
      <|> innerQuotes '"'
      <|> (do text "\\"; lineBreak <|> escape)
  let last ← closingQuotes '"'
  return String.ofList (pieces.flatten ++ last)

def multilineLiteral : Reader String := do
  text "'''"
  discard (optional newline)
  let pieces ← many (plain (· == '\'') <|> newline <|> innerQuotes '\'')
  let last ← closingQuotes '\''
  return String.ofList (pieces.flatten ++ last)

def oneLine : Reader String := basic <|> literal

def string : Reader String := multilineBasic <|> multilineLiteral <|> oneLine

end Quotation
end Toml
end SqlDialect
