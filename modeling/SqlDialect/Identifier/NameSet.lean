import SqlDialect.Text.Ascii
import SqlDialect.Text.WordSet

/-!
This module contains the names that are taken in a schema or in a table. Names that differ only in
case are the same.
-/

namespace SqlDialect

structure NameSet where
  /-- The names, in upper case. -/
  words : WordSet

namespace NameSet

def empty : NameSet := ⟨.empty⟩

def contains (s : NameSet) (name : String) : Bool := Text.upperAscii name ∈ s.words

def insert (s : NameSet) (name : String) : NameSet := ⟨s.words.insert (Text.upperAscii name)⟩

def erase (s : NameSet) (name : String) : NameSet := ⟨s.words.erase (Text.upperAscii name)⟩

def ofList (names : List String) : NameSet := names.foldl insert empty

def size (s : NameSet) : Nat := s.words.size

def isEmpty (s : NameSet) : Bool := s.size == 0

@[simp]
theorem contains_insert_iff {s : NameSet} {name other : String} :
    (s.insert name).contains other = true
      ↔ Text.eqIgnoringCase other name = true ∨ s.contains other = true := by
  simp [contains, insert, Text.eqIgnoringCase]

end NameSet

end SqlDialect
