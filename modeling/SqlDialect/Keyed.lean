/-!
This module contains the finite types whose values have a written form, the key that stands for a
value in settings and in the serialized form of a profile.
-/

namespace SqlDialect

class Keyed (α : Type) where
  /-- The values, in the order in which they are listed. -/
  all : List α
  key : α → String

def Keyed.ofKey? {α : Type} [Keyed α] (s : String) : Option α :=
  (Keyed.all : List α).find? (Keyed.key · == s)

theorem Keyed.key_of_ofKey? {α : Type} [Keyed α] {s : String} {a : α}
    (h : Keyed.ofKey? s = some a) : Keyed.key a = s := by
  simpa using List.find?_some h

end SqlDialect
