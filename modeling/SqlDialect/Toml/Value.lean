/-!
This module contains the values of TOML documents, and how tables are built up. The same table may
be added to in several places of a document. How it came about decides where that is allowed.
-/

namespace SqlDialect
namespace Toml

inductive Origin where
  /-- Written between braces, and complete. -/
  | inline
  /-- Passed by in the header of another table. -/
  | implied
  /-- Passed by in a dotted key. -/
  | dotted
  /-- By a header of its own. -/
  | header
  deriving DecidableEq, Repr

structure Magnitude where
  significand : Nat
  exponent : Int
  deriving DecidableEq, Repr

inductive Value where
  | string (s : String)
  | integer (n : Int)
  /-- A float without its sign; infinity and NaN have no magnitude. -/
  | float (magnitude : Option Magnitude)
  | boolean (b : Bool)
  | dateTime (text : String)
  /-- An array. One that is made of headers is open and can be added to. -/
  | array (isOpen : Bool) (items : List Value)
  | table (origin : Origin) (entries : List (String × Value))
  deriving Inhabited

abbrev Entries := List (String × Value)

namespace Entries

def set (es : Entries) (key : String) (v : Value) : Entries :=
  if (es.lookup key).isSome then
    es.map fun (k, old) => (k, if k = key then v else old)
  else
    es ++ [(key, v)]

def add? (es : Entries) (key : String) (v : Value) : Option Entries :=
  if (es.lookup key).isSome then none else some (es ++ [(key, v)])

/--
Change the table at a path, and make the tables on the way that are not there. A path goes through
the last table of an open array. A dotted path does not go through tables that have a header.
-/
def descend (isDotted : Bool) (f : Origin → Entries → Option Entries) (origin : Origin) :
    List String → Entries → Option Entries
  | [], es => f origin es
  | key :: path, es =>
    match es.lookup key with
    | none => do
      let origin := if isDotted then .dotted else .implied
      let sub ← descend isDotted f origin path []
      return es.set key (.table origin sub)
    | some (.table origin sub) => do
      guard (origin ≠ .inline ∧ ¬ (isDotted = true ∧ origin = .header))
      let sub ← descend isDotted f origin path sub
      return es.set key (.table origin sub)
    | some (.array true items) =>
      match items.getLast? with
      | some (.table origin sub) => do
        let sub ← descend isDotted f origin path sub
        return es.set key (.array true (items.dropLast ++ [.table origin sub]))
      | _ => none
    | some _ => none

/--
Assign a value to a key in the table at a dotted path. All tables on a dotted path but the first one
belong to dotted keys only.
-/
def assign? (es : Entries) (path : List String) (key : String) (v : Value) : Option Entries :=
  descend true
    (fun origin sub => if path.isEmpty ∨ origin = .dotted then sub.add? key v else none)
    .header path es

/--
Add the table of a header. The tables that other headers passed by may still get their own.
-/
def addTable? (es : Entries) (path : List String) (key : String) (fill : Entries → Option Entries) :
    Option Entries :=
  descend false
    (fun _ sub =>
      match sub.lookup key with
      | none => return sub.set key (.table .header (← fill []))
      | some (.table .implied old) => return sub.set key (.table .header (← fill old))
      | some _ => none)
    .header path es

def addElement? (es : Entries) (path : List String) (key : String)
    (fill : Entries → Option Entries) : Option Entries :=
  descend false
    (fun _ sub =>
      match sub.lookup key with
      | none => return sub.set key (.array true [.table .header (← fill [])])
      | some (.array true items) =>
        return sub.set key (.array true (items ++ [.table .header (← fill [])]))
      | some _ => none)
    .header path es

end Entries

end Toml
end SqlDialect
