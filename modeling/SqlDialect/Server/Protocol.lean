import SqlDialect.Text.Search

/-!
This module contains the protocol of a connection URL: `jdbc:` and at most two further parts, each
with its colon.
-/

namespace SqlDialect
namespace Protocol

def isStop (c : Char) : Bool := c == '@' || c == '/' || c == '\\'

def parts : Nat → List Char → List Char
  | 0, _ => []
  | n + 1, cs =>
    match cs.span fun c => c != ':' && !isStop c with
    | (part, ':' :: rest) => part ++ ':' :: parts n rest
    | _ => []

def ofUrl? (url : String) : Option String := do
  let rest ← Text.after? "jdbc:".toList url.toList
  return String.ofList ("jdbc:".toList ++ parts 2 rest)

end Protocol
end SqlDialect
