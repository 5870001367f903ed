import SqlDialect.Toml.Value

/-!
This module contains the numbers of TOML documents. Single underscores may stand between digits.
-/

namespace SqlDialect
namespace Toml
namespace Number

def digits? (isDigit : Char → Bool) : List Char → Option (List Char)
  | [] => none
  | [c] => if isDigit c then some [c] else none
  | c :: '_' :: cs => if isDigit c then (c :: ·) <$> digits? isDigit cs else none
  | c :: cs => if isDigit c then (c :: ·) <$> digits? isDigit cs else none

def digitValue (c : Char) : Nat :=
  if c.isDigit then c.toNat - '0'.toNat else c.toLower.toNat - 'a'.toNat + 10

def value (base : Nat) (digits : List Char) : Nat :=
  digits.foldl (fun n c => base * n + digitValue c) 0

def inBase? (base : Nat) (cs : List Char) : Option Int := do
  let digits ← digits? (fun c => (c.isDigit || c.isAlpha) && digitValue c < base) cs
  return value base digits

def decimalDigits? (cs : List Char) : Option (List Char) := do
  let digits ← digits? Char.isDigit cs
  guard (digits.length = 1 ∨ digits.head? ≠ some '0')
  return digits

def sign : List Char → Bool × List Char
  | '+' :: cs => (false, cs)
  | '-' :: cs => (true, cs)
  | cs => (false, cs)

def integer? : List Char → Option Int
  | '0' :: 'x' :: cs => inBase? 16 cs
  | '0' :: 'o' :: cs => inBase? 8 cs
  | '0' :: 'b' :: cs => inBase? 2 cs
  | cs => do
    let (negative, cs) := sign cs
    let n := value 10 (← decimalDigits? cs)
    return if negative then -n else n

def splitDigits (cs : List Char) : List Char × List Char := cs.span fun c => c.isDigit || c == '_'

def exponent? : List Char → Option Int
  | [] => some 0
  | c :: cs => do
    guard (c = 'e' ∨ c = 'E')
    let (negative, cs) := sign cs
    let n : Int := value 10 (← digits? Char.isDigit cs)
    return if negative then -n else n

def magnitude? (cs : List Char) : Option Magnitude := do
  let (whole, rest) := splitDigits cs
  let whole ← decimalDigits? whole
  match rest with
  | [] => none
  | '.' :: rest =>
    let (fraction, rest) := splitDigits rest
    let fraction ← digits? Char.isDigit fraction
    return ⟨value 10 (whole ++ fraction), (← exponent? rest) - fraction.length⟩
  | rest => return ⟨value 10 whole, ← exponent? rest⟩

def float? (cs : List Char) : Option Value := do
  let (_, cs) := sign cs
  if cs = "inf".toList ∨ cs = "nan".toList then
    return .float none
  else
    return .float (← magnitude? cs)

end Number

/--
Whether a decimal is too large for a float of 64 bits, so that it would be rounded to infinity.
-/
def Magnitude.overflows (m : Magnitude) : Bool :=
  let size := (toString m.significand).length + m.exponent
  if m.significand = 0 || size < 300 then
    false
  else if 400 < size then
    true
  else
    (Nat.pow 2 1024 - Nat.pow 2 970) * Nat.pow 10 (-m.exponent).toNat
      ≤ m.significand * Nat.pow 10 m.exponent.toNat

end Toml
end SqlDialect
