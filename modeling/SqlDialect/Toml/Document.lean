import SqlDialect.Toml.DateTime
import SqlDialect.Toml.Number
import SqlDialect.Toml.Quotation

/-!
This module contains the reading of TOML documents.
-/

namespace SqlDialect
namespace Toml

open Reader

structure Key where
  path : List String
  last : String

structure Assignment where
  key : Key
  value : Value

structure Section where
  isArray : Bool
  key : Key
  assignments : List Assignment

namespace Entries

def assignAll? (as : List Assignment) (es : Entries) : Option Entries :=
  as.foldlM (fun es a => es.assign? a.key.path a.key.last a.value) es

def addSection? (es : Entries) (s : Section) : Option Entries :=
  let add := if s.isArray then addElement? else addTable?
  add es s.key.path s.key.last (assignAll? s.assignments)

end Entries

def isBareKeyChar (c : Char) : Bool :=
  c.isAlphanum || c == '-' || c == '_'

def bareKey : Reader String := do
  let c ← one isBareKeyChar
  return String.ofList (c :: (← run isBareKeyChar))

def simpleKey : Reader String := Quotation.oneLine <|> bareKey

/--
How many parts a key may have, and how deep brackets may be nested.
-/
def maxDepth : Nat := 80

def key : Reader Key := do
  let first ← simpleKey
  let others ← many do
    spaces
    text "."
    spaces
    simpleKey
  let all := first :: others
  guard (all.length ≤ maxDepth)
  return ⟨all.dropLast, all.getLastD first⟩

def isWordChar (c : Char) : Bool :=
  c.isAlphanum || c == '_' || c == '+' || c == '-' || c == '.' || c == ':'

def ofWord? (word : List Char) : Option Value :=
  if word = "true".toList then
    some (.boolean true)
  else if word = "false".toList then
    some (.boolean false)
  else
    ((Number.integer? word).map .integer).or <| (Number.float? word).or <|
      if DateTime.isValid word then some (.dateTime (String.ofList word)) else none

def timeOfDay : Reader (List Char) := do
  text " "
  let c ← one Char.isDigit
  return ' ' :: c :: (← run isWordChar)

def word : Reader Value := do
  let word ← run isWordChar
  if DateTime.isDate word then
    ofWord? (word ++ (← timeOfDay <|> pure []))
  else
    ofWord? word

def assignment (gap : Reader Unit) (value : Reader Value) : Reader Assignment := do
  let k ← key
  gap
  text "="
  gap
  return ⟨k, ← value⟩

def array (value : Reader Value) : Reader Value := do
  text "["
  let items ← commaSeparated blanks value
  text "]"
  return .array false items

def inlineTable (value : Reader Value) : Reader Value := do
  text "\x7b"
  let assignments ← commaSeparated blanks (assignment blanks value)
  text "\x7d"
  return .table .inline (← Entries.assignAll? assignments [])

def value : (depth : Nat) → Reader Value
  | 0 => (.string <$> Quotation.string) <|> word
  | depth + 1 =>
    (.string <$> Quotation.string) <|> array (value depth) <|> inlineTable (value depth) <|> word

def line : Reader Assignment := do
  blanks
  let a ← assignment spaces (value maxDepth)
  lineEnd
  return a

def header : Reader (Bool × Key) := do
  text "["
  let isArray := (← optional (text "[")).isSome
  spaces
  let k ← key
  spaces
  text (if isArray then "]]" else "]")
  lineEnd
  return (isArray, k)

def section_ : Reader Section := do
  blanks
  let (isArray, k) ← header
  return ⟨isArray, k, ← many line⟩

def document : Reader (List Assignment × List Section) := do
  discard (optional (text "\ufeff"))
  let assignments ← many line
  let sections ← many section_
  blanks
  atEnd
  return (assignments, sections)

def read? (s : String) : Option Value := do
  let ((assignments, sections), _) ← document s.toList
  let root ← Entries.assignAll? assignments []
  return .table .header (← sections.foldlM Entries.addSection? root)

end Toml
end SqlDialect
