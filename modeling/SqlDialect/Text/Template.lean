import SqlDialect.Text.Numeral

/-!
This module contains templates. A template is text in which `{i}` stands for the argument number
`i`. It is cut into segments once, from left to right, and only then filled in, so what an argument
contains is never read as part of the template.
-/

namespace SqlDialect
namespace Template

inductive Segment where
  | char (c : Char)
  | arg (index : Nat)
  deriving DecidableEq, Repr

/--
Reads the reference that starts after an opening brace: the index up to the next closing brace, if
that is a numeral below `count`, together with the number of characters read.
-/
def reference? (count : Nat) (cs : List Char) : Option (Nat × Nat) := do
  let digits := cs.takeWhile (· ≠ '\x7d')
  guard (digits.length < cs.length)
  let index ← Text.readNumeral? Text.bound64 digits
  guard (index < count)
  return (index, digits.length + 1)

/--
The segments of a template for `count` arguments. A brace that does not start a reference stands for
itself, and reading goes on right after it.
-/
def segments (count : Nat) (template : List Char) : List Segment :=
  go 0 template
where
  /-- Passes over `skip` characters first. -/
  go (skip : Nat) : List Char → List Segment
    | [] => []
    | c :: cs =>
      match skip with
      | skip + 1 => go skip cs
      | 0 =>
        if c = '\x7b' then
          match reference? count cs with
          | some (index, length) => .arg index :: go length cs
          | none => .char c :: go 0 cs
        else
          .char c :: go 0 cs

def Segment.text (args : List String) : Segment → String
  | .char c => c.toString
  | .arg index => args.getD index ""

def fill (template : String) (args : List String) : String :=
  String.join ((segments args.length template.toList).map (Segment.text args))

end Template
end SqlDialect
