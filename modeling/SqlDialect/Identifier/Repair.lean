import SqlDialect.Identifier.NameSet
import SqlDialect.Identifier.Shorten
import SqlDialect.Profile.Basic

/-!
This module contains the repair of names: a name that is too long is shortened, one that is reserved
is changed, and one that is taken gets a number in place of its last characters. A name that needs
no repair stays as it is.
-/

namespace SqlDialect
namespace Identifier

def padded (width n : Nat) : List Char :=
  let digits := Nat.toDigits 10 n
  List.replicate (width - digits.length) '0' ++ digits

def firstFree? (taken : String → Bool) (stem : List Char) (width n : Nat) :
    (count : Nat) → Option String
  | 0 => none
  | count + 1 =>
    let candidate := String.ofList (stem ++ padded width n)
    if taken candidate then firstFree? taken stem width (n + 1) count else some candidate

def maxNumberWidth : Nat := 18

/--
`name` if it is free. Otherwise its last characters are replaced by a number, one character by the
numbers from 0 to 9, two by those from 00 to 99, and so on, until the name is free.
-/
def makeUnique (taken : String → Bool) (name : String) : Compile String :=
  if taken name then
    let cs := name.toList
    let widths := List.range' 1 (min cs.length maxNumberWidth)
    let free? := widths.findSome? fun width =>
      firstFree? taken (cs.take (cs.length - width)) width 0 (Nat.pow 10 width)
    match free? with
    | some candidate => .ok candidate
    | none => .error (.nameSpaceExhausted name)
  else
    .ok name

end Identifier

namespace Profile

open Identifier

def delimit (p : Profile) (body : String) : String :=
  p.naming.quoteStyle.opening.toString ++ body ++ p.naming.quoteStyle.closing.toString

def delimitedBody? (p : Profile) (name : String) : Option String :=
  match name.toList with
  | [] => none
  | c :: cs =>
    if c = p.naming.quoteStyle.opening ∧ cs.getLast? = some p.naming.quoteStyle.closing
        ∧ 1 < cs.length then
      some (String.ofList cs.dropLast)
    else
      none

/--
Shorten a name to a limit, and put a zero at the end of it if it is reserved.
-/
def fit (p : Profile) (name : String) (max : Nat) : String :=
  let short := shorten name max
  if p.isReserved short then shorten short (max - 1) ++ "0" else short

/--
Make `name` a valid name of its kind, different from those in `names` if `unique` asks for it.
Inside delimiters no word is reserved.
-/
def repairName (p : Profile) (name : String) (kind : NameKind) (names : NameSet) (unique : Bool) :
    Compile String :=
  let max := p.maxNameLength kind
  match p.delimitedBody? name with
  | some body => do
    let body := shorten body (max - 2)
    let body ← if unique then makeUnique (fun s => names.contains (p.delimit s)) body else .ok body
    return p.delimit body
  | none =>
    let name := p.fit name max
    if unique then makeUnique names.contains name else .ok name

def claimName (p : Profile) (name : String) (kind : NameKind) (names : NameSet) :
    Compile (String × NameSet) := do
  let name ← p.repairName name kind names true
  return (name, names.insert name)

def checkNameLength (p : Profile) (name : String) (kind : NameKind) : Compile Unit :=
  let max := p.maxNameLength kind
  if name.length ≤ max then .ok () else .error (.nameTooLong name name.length max)

end Profile

end SqlDialect
