import SqlDialect.Number.Binary64

/-!
This module contains the values that can be written down in a statement.
-/

namespace SqlDialect

inductive Literal where
  | int (n : Int)
  | float (x : Binary64)
  | text (s : String)
  | bool (b : Bool)
  | null
  deriving DecidableEq

namespace Literal

/--
Equality of values. It differs from equality of literals on floats: the two zeros are equal, and a
NaN is equal to nothing.
-/
def equals : Literal → Literal → Bool
  | .int m, .int n => m == n
  | .float x, .float y => x.equals y
  | .text s, .text t => s == t
  | .bool a, .bool b => a == b
  | .null, .null => true
  | _, _ => false

def isFinite : Literal → Bool
  | .float x => x.isFinite
  | _ => true

theorem equals_self {l : Literal} (h : l.isFinite = true) : l.equals l = true := by
  cases l <;> simp_all [equals, isFinite, Binary64.equals_self]

end Literal

end SqlDialect
