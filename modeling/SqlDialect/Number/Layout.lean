import SqlDialect.Number.Shortest

/-!
This module contains the writing of decimals. A layout says up to which size a decimal is written
positionally; all others are written with an exponent.
-/

namespace SqlDialect

/--
A decimal `0.d₁d₂… * 10 ^ e` with `low < e ≤ high` is written positionally.
-/
structure DecimalLayout where
  low : Int
  high : Int

namespace DecimalLayout

def zeros (n : Nat) : String := String.ofList (List.replicate n '0')

def write (layout : DecimalLayout) (d : Decimal) : String :=
  let digits := Nat.toDigits 10 d.digits
  let point := digits.length + d.exponent
  if layout.low < point ∧ point ≤ layout.high then
    if 0 ≤ d.exponent then
      String.ofList digits ++ zeros d.exponent.toNat ++ ".0"
    else if 0 < point then
      String.ofList (digits.take point.toNat) ++ "." ++ String.ofList (digits.drop point.toNat)
    else
      "0." ++ zeros (-point).toNat ++ String.ofList digits
  else
    let mantissa :=
      match digits with
      | [] => ""
      | [c] => c.toString
      | c :: cs => c.toString ++ "." ++ String.ofList cs
    mantissa ++ "e" ++ toString (point - 1)

def writeFloat (layout : DecimalLayout) (x : FiniteBinary64) : String :=
  let sign := if x.value.isNegative then "-" else ""
  sign ++ if x.value.isZero then "0.0" else layout.write (Decimal.shortest x.value)

end DecimalLayout

end SqlDialect
