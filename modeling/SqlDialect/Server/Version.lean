import SqlDialect.Text.Digit
import SqlDialect.Text.Numeral
import SqlDialect.Text.Search

/-!
This module contains the version of a server and how it is found in what the server says about
itself. Servers write it in different ways; each way is a pattern, and the first pattern that occurs
decides.
-/

namespace SqlDialect

structure ServerVersion where
  major : Nat
  minor : Nat
  deriving DecidableEq, Repr

namespace ServerVersion

def isAtMost (v w : ServerVersion) : Bool :=
  v.major < w.major || v.major == w.major && v.minor ≤ w.minor

structure Digits where
  major : List Char
  minor : List Char

/--
The version that some digits stand for. Digits of other scripts stand for none, nor do numbers of
more than 32 bits.
-/
def Digits.value? (d : Digits) : Option ServerVersion := do
  let major ← Text.readNumeral? Text.bound32 d.major
  let minor ← Text.readNumeral? Text.bound32 d.minor
  return ⟨major, minor⟩

def search? (pattern : List Char → Option Digits) : List Char → Option Digits
  | [] => pattern []
  | c :: cs => (pattern (c :: cs)).or (search? pattern cs)

def number? (cs : List Char) : Option (List Char × List Char) :=
  match cs.span Text.isDecimalDigit with
  | ([], _) => none
  | (digits, rest) => some (digits, rest)

def twoDigits? : List Char → Option (List Char × List Char)
  | c :: d :: cs =>
    if Text.isDecimalDigit c && Text.isDecimalDigit d then some ([c, d], cs) else none
  | _ => none

def release? (cs : List Char) : Option Digits := do
  let (major, _) ← number? (← Text.after? "Release ".toList cs)
  return ⟨major, ['0']⟩

def level? (cs : List Char) : Option Digits := do
  let rest ← (Text.after? "SQL".toList cs).or (Text.after? "DSN".toList cs)
  let (major, rest) ← twoDigits? rest
  let (minor, _) ← twoDigits? rest
  return ⟨major, minor⟩

def dotted? (cs : List Char) : Option Digits := do
  let (major, rest) ← number? cs
  let (minor, _) ← number? (← Text.after? ['.'] rest)
  return ⟨major, minor⟩

def versionRelease? (cs : List Char) : Option Digits := do
  let (major, rest) ← number? (← (Text.after? ['V'] cs).or (Text.after? ['v'] cs))
  let (minor, _) ← number? (← (Text.after? ['R'] rest).or (Text.after? ['r'] rest))
  return ⟨major, minor⟩

def find? (s : String) : Option ServerVersion := do
  let digits ←
    (search? release? s.toList).or <| (search? level? s.toList).or <|
      (search? dotted? s.toList).or (search? versionRelease? s.toList)
  digits.value?

def findISeries? (s : String) : Option ServerVersion := do
  let digits ← search? versionRelease? s.toList
  digits.value?

end ServerVersion

end SqlDialect
