import SqlDialect.Keyed
import SqlDialect.Text.Numeral
import SqlDialect.Toml.Number
import SqlDialect.Toml.Value

/-!
This module contains the reading of data out of TOML values.
-/

namespace SqlDialect

namespace Toml.Value

def dateTimeKey : String := "$__toml_private_datetime"

mutual

def isRepresentable : Value → Bool
  | .string _ | .boolean _ | .dateTime _ => true
  | .integer n => -(Nat.pow 2 127 : Int) ≤ n && n < (Nat.pow 2 128 : Int)
  | .float m => !m.any (·.overflows)
  | .array _ items => areRepresentable items
  | .table _ entries => entriesAreRepresentable entries

def areRepresentable : List Value → Bool
  | [] => true
  | v :: vs => v.isRepresentable && areRepresentable vs

def entriesAreRepresentable : List (String × Value) → Bool
  | [] => true
  | (_, v) :: es => v.isRepresentable && entriesAreRepresentable es

end

/--
A value as a record with given fields. The fields of a table go by their names, those of an array by
their places. Other entries of a table are passed over.
-/
def record? (fields : List String) : Value → Option (String → Option Value)
  | .table _ entries =>
    if entries.all fun (key, v) => fields.contains key || v.isRepresentable then
      some (entries.lookup ·)
    else
      none
  | .array _ items => some ((fields.zip items).lookup ·)
  | .dateTime _ => some fun _ => none
  | _ => none

def string? : Value → Option String
  | .string s => some s
  | _ => none

def bool? : Value → Option Bool
  | .boolean b => some b
  | _ => none

def nat? : Value → Option Nat
  | .integer n => if 0 ≤ n && n < (Text.bound64 : Int) then some n.toNat else none
  | _ => none

def list? {α : Type} (item : Value → Option α) : Value → Option (List α)
  | .array _ items => items.mapM item
  | _ => none

/--
One of several alternatives, by its key: the key itself or a table that holds nothing else.
-/
def keyed? {α : Type} [Keyed α] : Value → Option α
  | .string s => Keyed.ofKey? s
  | .table _ [(key, .table _ [])] | .table _ [(key, .array _ [])] => Keyed.ofKey? key
  | _ => none

def textMap? : Value → Option (List (String × String))
  | .table _ entries => entries.mapM fun (key, v) => return (key, ← v.string?)
  | .dateTime s => some [(dateTimeKey, s)]
  | _ => none

def field? {α : Type} (get : String → Option Value) (name : String) (read : Value → Option α) :
    Option (Option α) :=
  match get name with
  | none => some none
  | some v => some <$> read v

end Toml.Value

end SqlDialect
