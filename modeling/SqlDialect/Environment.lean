import SqlDialect.Text.Alphanumeric
import SqlDialect.Text.Search

/-!
This module contains environment variables and the references to them in texts.
-/

namespace SqlDialect

def Text.utf8 (s : String) : List UInt8 := s.toUTF8.data.toList

/--
The bytes of the name of a variable, an equals sign, and its value. They need not be text.
-/
structure EnvironmentEntry where
  bytes : List UInt8
  deriving DecidableEq, Repr

namespace EnvironmentEntry

def ofTexts (v : String × String) : EnvironmentEntry := ⟨Text.utf8 (v.1 ++ "=" ++ v.2)⟩

instance : Coe (String × String) EnvironmentEntry := ⟨ofTexts⟩

instance : Coe (List (String × String)) (List EnvironmentEntry) := ⟨List.map ofTexts⟩

end EnvironmentEntry

structure Environment where
  entries : List EnvironmentEntry := []

namespace Environment

/--
The value of a variable. A name stands for what follows it and an equals sign at the start of an
entry, and the empty name stands for nothing.
-/
def bytes? (env : Environment) (name : String) : Option (List UInt8) :=
  if name.isEmpty then
    none
  else
    env.entries.findSome? fun e => Text.after? (Text.utf8 (name ++ "=")) e.bytes

def lookup? (env : Environment) (name : String) : Option String :=
  (env.bytes? name).bind fun bytes => String.fromUTF8? bytes.toByteArray

end Environment

structure UnsetVariable where
  name : String
  deriving DecidableEq, Repr

namespace Reference

inductive Piece where
  | char (c : Char)
  | variable_ (name : String)
  deriving DecidableEq, Repr

def isNameChar (c : Char) : Bool := Text.isAlphanumeric c || c == '_'

/--
The pieces of a text. A reference is a dollar sign with a name in braces or with as long a name as
possible. Other dollar signs stand for themselves.
-/
def pieces : List Char → List Piece
  | [] => []
  | '$' :: '\x7b' :: cs =>
    .variable_ (String.ofList (cs.takeWhile (· ≠ '\x7d')))
      :: pieces ((cs.dropWhile (· ≠ '\x7d')).drop 1)
  | '$' :: cs =>
    if (cs.takeWhile isNameChar).isEmpty then
      .char '$' :: pieces cs
    else
      .variable_ (String.ofList (cs.takeWhile isNameChar)) :: pieces (cs.dropWhile isNameChar)
  | c :: cs => .char c :: pieces cs
termination_by cs => cs.length
decreasing_by
  all_goals
    simp only [List.length_cons, List.length_drop]
  · have := (List.dropWhile_sublist (l := cs) (· ≠ '\x7d')).length_le
    omega
  · omega
  · have := (List.dropWhile_sublist (l := cs) isNameChar).length_le
    omega
  · omega

def Piece.text (env : Environment) : Piece → Except UnsetVariable String
  | .char c => .ok c.toString
  | .variable_ name =>
    match env.lookup? name with
    | some value => .ok value
    | none => .error ⟨name⟩

/--
A text with its references replaced by the values of the variables. The values are taken as they
are.
-/
def expand (env : Environment) (s : String) : Except UnsetVariable String :=
  return String.join (← (pieces s.toList).mapM (Piece.text env))

def names (s : String) : List String :=
  (pieces s.toList).filterMap fun
    | .variable_ name => some name
    | .char _ => none

end Reference

end SqlDialect
