/-!
This module contains the reading of decimal numerals: an optional plus sign and at least one ASCII
digit, with a value below a bound.
-/

namespace SqlDialect
namespace Text

def bound32 : Nat := 4294967296

def bound64 : Nat := 18446744073709551616

def digitsValue? (cs : List Char) : Option Nat :=
  cs.foldlM (fun n c => if c.isDigit then some (10 * n + (c.toNat - '0'.toNat)) else none) 0

def dropPlus : List Char → List Char
  | '+' :: cs => cs
  | cs => cs

def readNumeral? (bound : Nat) (cs : List Char) : Option Nat :=
  if (dropPlus cs).isEmpty then
    none
  else
    (digitsValue? (dropPlus cs)).filter (· < bound)

theorem lt_of_readNumeral? {bound n : Nat} {cs : List Char} (h : readNumeral? bound cs = some n) :
    n < bound := by
  unfold readNumeral? at h
  split at h
  next => simp at h
  next => simpa using (Option.filter_eq_some_iff.1 h).2

end Text
end SqlDialect
