/-!
This module contains binary floating-point numbers of 64 bits. A number is its bits: one for the
sign, eleven for the exponent, and 52 for the fraction.
-/

namespace SqlDialect

structure Binary64 where
  bits : UInt64
  deriving DecidableEq, Repr

namespace Binary64

def isNegative (x : Binary64) : Bool := Nat.pow 2 63 ≤ x.bits.toNat

def exponentField (x : Binary64) : Nat := x.bits.toNat / Nat.pow 2 52 % Nat.pow 2 11

def fraction (x : Binary64) : Nat := x.bits.toNat % Nat.pow 2 52

def isFinite (x : Binary64) : Bool := x.exponentField != 2047

def isNaN (x : Binary64) : Bool := x.exponentField == 2047 && x.fraction != 0

def isZero (x : Binary64) : Bool := x.exponentField == 0 && x.fraction == 0

def significand (x : Binary64) : Nat :=
  if x.exponentField = 0 then x.fraction else Nat.pow 2 52 + x.fraction

def exponent (x : Binary64) : Int :=
  if x.exponentField = 0 then -1074 else x.exponentField - 1075

/--
Whether the gap to the next number toward zero is half the gap away from zero.
-/
def isNarrowBelow (x : Binary64) : Bool := x.fraction == 0 && 1 < x.exponentField

def equals (x y : Binary64) : Bool :=
  !x.isNaN && !y.isNaN && (x == y || x.isZero && y.isZero)

def specialName (x : Binary64) : String :=
  if x.isNaN then "NaN" else if x.isNegative then "-inf" else "inf"

theorem not_isNaN_of_isFinite {x : Binary64} (h : x.isFinite = true) : x.isNaN = false := by
  simp_all [isFinite, isNaN]

theorem equals_self {x : Binary64} (h : x.isFinite = true) : x.equals x = true := by
  simp [equals, not_isNaN_of_isFinite h]

theorem equals_comm (x y : Binary64) : x.equals y = y.equals x := by
  simp only [equals]
  grind

end Binary64

structure FiniteBinary64 where
  value : Binary64
  isFinite : value.isFinite = true
  deriving DecidableEq

def FiniteBinary64.ofBinary64? (x : Binary64) : Option FiniteBinary64 :=
  if h : x.isFinite = true then some ⟨x, h⟩ else none

@[simp]
theorem FiniteBinary64.ofBinary64?_eq_none_iff {x : Binary64} :
    ofBinary64? x = none ↔ x.isFinite = false := by
  simp [ofBinary64?]

end SqlDialect
