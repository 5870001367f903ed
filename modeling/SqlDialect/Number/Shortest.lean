import SqlDialect.Number.Binary64

/-!
This module contains the shortest decimal that reads back as a given binary number. The reals that
round to a number form an interval. On the grids of the multiples of a power of ten, from coarse to
fine, the two neighbours of the number are tested against that interval, and the first grid with a
hit has the decimal with the fewest digits.
-/

namespace SqlDialect

structure Decimal where
  digits : Nat
  exponent : Int
  deriving DecidableEq, Repr

namespace Decimal

def numeralLength (n : Nat) : Nat := (Nat.toDigits 10 n).length

/--
The reals that round to one number. All of them are over the common denominator `den`, and the ends
belong to the interval iff `closed`.
-/
structure Interval where
  low : Nat
  mid : Nat
  high : Nat
  den : Nat
  closed : Bool

namespace Interval

def ofBinary64 (x : Binary64) : Interval :=
  let unit := x.exponent - 2
  let up := Nat.pow 2 unit.toNat
  let mid := 4 * x.significand
  { low := (if x.isNarrowBelow then mid - 1 else mid - 2) * up
    mid := mid * up
    high := (mid + 2) * up
    den := Nat.pow 2 (-unit).toNat
    closed := x.significand % 2 = 0 }

def scale (i : Interval) (k : Int) : Interval :=
  let up := Nat.pow 10 (-k).toNat
  { i with
    low := i.low * up
    mid := i.mid * up
    high := i.high * up
    den := i.den * Nat.pow 10 k.toNat }

def contains (i : Interval) (d : Nat) : Bool :=
  let n := d * i.den
  if i.closed then i.low ≤ n && n ≤ i.high else i.low < n && n < i.high

/--
The integer in the interval that is closest to its middle, of two as close the even one, if one of
the two integers next to the middle lies in the interval.
-/
def nearest? (i : Interval) : Option Nat :=
  let d := i.mid / i.den
  match i.contains d, i.contains (d + 1) with
  | false, false => none
  | true, false => some d
  | false, true => some (d + 1)
  | true, true =>
    match compare (2 * i.mid) ((2 * d + 1) * i.den) with
    | .lt => some d
    | .gt => some (d + 1)
    | .eq => some (if d % 2 = 0 then d else d + 1)

end Interval

/--
The decimal with the fewest digits that reads back as the positive finite number `x`.
-/
def shortest (x : Binary64) : Decimal :=
  let i := Interval.ofBinary64 x
  let top : Int := numeralLength i.mid - numeralLength i.den + 1
  go i top 20
where
  /-- Tries the grids of the powers of ten from `10 ^ k` downward. Seventeen digits suffice. -/
  go (i : Interval) (k : Int) : Nat → Decimal
    | 0 => ⟨(i.scale k).mid / (i.scale k).den, k⟩
    | grids + 1 =>
      match (i.scale k).nearest? with
      | some d => ⟨d, k⟩
      | none => go i (k - 1) grids

end Decimal

end SqlDialect
