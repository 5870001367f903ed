import SqlDialect.Profile.Basic
import SqlDialect.Schema.Basic
import SqlDialect.Text.Search

/-!
This module contains the names of column types in a dialect, with their sizes.
-/

namespace SqlDialect
namespace Profile

def baseTypeName (p : Profile) (code : TypeCode) : String := (p.types.names code).getD code.name

def sizeClause : (size decimals : Nat) → String
  | 0, _ => ""
  | size, 0 => s!"({size})"
  | size, decimals => s!"({size}, {decimals})"

def modifierStart? (p : Profile) (name : List Char) : Option Nat :=
  let upper := name.map Char.toUpper
  let starts := p.types.modifiers.toList.filterMap fun m =>
    (Text.splitAt? m.toList upper).map (·.1.length)
  starts.min?

def sizeMark : List Char := ['\x7b', '0', '\x7d']

/--
A size goes where the type name has a mark for it, else before the first modifier, else to the end.
Without a size the mark is dropped, with all that follows it.
-/
def insertSize (p : Profile) (name clause : String) : String :=
  match Text.splitAt? sizeMark name.toList with
  | some (before, after) =>
    if clause.isEmpty then
      String.ofList before
    else
      String.ofList before ++ clause ++ String.ofList after
  | none =>
    if clause.isEmpty then
      name
    else
      match p.modifierStart? name.toList with
      | some i =>
        String.ofList (Text.trimEnd (name.toList.take i)) ++ clause ++ " "
          ++ String.ofList (name.toList.drop i)
      | none => name ++ clause

def appendSize (p : Profile) (name : String) (size decimals : Nat) : String :=
  if Text.upperAscii name ∈ p.types.fixedSize ∨ '(' ∈ name.toList then
    name
  else
    p.insertSize name (sizeClause size decimals)

def typeName (p : Profile) (code : TypeCode) (size decimals : Nat) : String :=
  p.appendSize (p.baseTypeName code) size decimals

/--
The type of a column: the one it names itself, else the one for auto-assigned columns, else the one
of its type code.
-/
def columnType (p : Profile) (c : Column) : String :=
  let name :=
    match c.typeName, p.types.autoAssign with
    | some name, _ => name
    | none, some name => if c.autoAssigned then name else p.baseTypeName c.typeCode
    | none, none => p.baseTypeName c.typeCode
  p.appendSize name c.size c.decimals

end Profile
end SqlDialect
