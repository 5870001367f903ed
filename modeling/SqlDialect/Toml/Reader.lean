import SqlDialect.Text.Search

/-!
This module contains readers, which take what they recognise from the front of a text, and the
readers for blanks, comments and line ends.
-/

namespace SqlDialect
namespace Toml

abbrev Reader (α : Type) := StateT (List Char) Option α

namespace Reader

def text (s : String) : Reader Unit := fun cs =>
  (Text.after? s.toList cs).map ((), ·)

def one (p : Char → Bool) : Reader Char := fun
  | c :: cs => if p c then some (c, cs) else none
  | [] => none

def run (p : Char → Bool) : Reader (List Char) := fun cs => some (cs.span p)

def atEnd : Reader Unit := fun cs => if cs.isEmpty then some ((), []) else none

def repeatedly {α : Type} (r : Reader α) (cs : List Char) : List α × List Char :=
  match r cs with
  | some (a, rest) =>
    if rest.length < cs.length then
      let (as, rest) := repeatedly r rest
      (a :: as, rest)
    else
      ([], cs)
  | none => ([], cs)
termination_by cs.length

def many {α : Type} (r : Reader α) : Reader (List α) := fun cs => some (repeatedly r cs)

def commaSeparated {α : Type} (blanks : Reader Unit) (item : Reader α) : Reader (List α) := do
  blanks
  match ← optional item with
  | none => return []
  | some first =>
    blanks
    let others ← many do
      text ","
      blanks
      let a ← item
      blanks
      return a
    let _ ← optional (text ",")
    blanks
    return first :: others

def isSpace (c : Char) : Bool := c == ' ' || c == '\t'

def isControl (c : Char) : Bool := c.toNat < 0x20 && c != '\t' || c.toNat == 0x7f

def spaces : Reader Unit := discard (run isSpace)

def newline : Reader (List Char) :=
  (do text "\n"; return ['\n']) <|> (do text "\r\n"; return ['\r', '\n'])

def comment : Reader Unit := do
  text "#"
  discard (run fun c => !isControl c)

def blanks : Reader Unit :=
  discard (many ((discard (one isSpace)) <|> comment <|> discard newline))

def lineEnd : Reader Unit := do
  spaces
  discard (optional comment)
  discard newline <|> atEnd

end Reader

end Toml
end SqlDialect
