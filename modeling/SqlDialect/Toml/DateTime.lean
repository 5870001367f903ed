/-!
This module contains the dates and times of TOML documents: which texts are one.
-/

namespace SqlDialect
namespace Toml
namespace DateTime

def digits? (count : Nat) (cs : List Char) : Option (Nat × List Char) :=
  let digits := cs.take count
  if digits.length = count ∧ digits.all Char.isDigit then
    some (digits.foldl (fun n c => 10 * n + (c.toNat - '0'.toNat)) 0, cs.drop count)
  else
    none

def field? (bound : Nat) (cs : List Char) : Option (Nat × List Char) := do
  let (n, cs) ← digits? 2 cs
  guard (n < bound)
  return (n, cs)

def past? (c : Char) : List Char → Option (List Char)
  | d :: cs => if c = d then some cs else none
  | [] => none

def isLeapYear (year : Nat) : Bool := year % 4 == 0 && (year % 100 != 0 || year % 400 == 0)

def daysIn (year month : Nat) : Nat :=
  match month with
  | 2 => if isLeapYear year then 29 else 28
  | 4 | 6 | 9 | 11 => 30
  | _ => 31

def date? (cs : List Char) : Option (List Char) := do
  let (year, cs) ← digits? 4 cs
  let (month, cs) ← field? 13 (← past? '-' cs)
  guard (1 ≤ month)
  let (day, cs) ← field? 32 (← past? '-' cs)
  guard (1 ≤ day ∧ day ≤ daysIn year month)
  return cs

def fraction? : List Char → Option (List Char)
  | '.' :: cs => if (cs.head?.any Char.isDigit) then some (cs.dropWhile Char.isDigit) else none
  | cs => some cs

def time? (cs : List Char) : Option (List Char) := do
  let (_, cs) ← field? 24 cs
  let (_, cs) ← field? 60 (← past? ':' cs)
  match past? ':' cs with
  | none => return cs
  | some cs =>
    let (_, cs) ← field? 61 cs
    fraction? cs

def isOffset : List Char → Bool
  | [] | ['Z'] | ['z'] => true
  | c :: cs =>
    let rest? : Option (List Char) := do
      guard (c = '+' ∨ c = '-')
      let (_, cs) ← field? 24 cs
      let (_, cs) ← field? 60 (← past? ':' cs)
      return cs
    rest? == some []

def isDate (cs : List Char) : Bool := date? cs == some []

def isValid (cs : List Char) : Bool :=
  match date? cs with
  | none => time? cs == some []
  | some [] => true
  | some (c :: cs) => (c == 'T' || c == 't' || c == ' ') && (time? cs).any isOffset

end DateTime
end Toml
end SqlDialect
