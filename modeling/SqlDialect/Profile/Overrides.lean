import SqlDialect.Profile.Basic

/-!
This module contains adjustments to a profile. Adjusting never fails because of the profile that is
adjusted, only because the adjustments contradict each other or make no sense.
-/

namespace SqlDialect

inductive OverrideError where
  /-- A capability is both enabled and disabled. -/
  | conflict (capability : Capability)
  | zeroLength
  | unknownType (cause : UnknownName)
  deriving DecidableEq

def OverrideError.message : OverrideError → String
  | .conflict c => s!"capability {c.name} is both enabled and disabled"
  | .zeroLength => "name length limits must be positive"
  | .unknownType cause => cause.message

structure Overrides where
  joinSyntax : Option JoinSyntax := none
  rangePosition : Option RangePosition := none
  enable : List Capability := []
  disable : List Capability := []
  maxTableNameLength : Option Nat := none
  maxColumnNameLength : Option Nat := none
  maxConstraintNameLength : Option Nat := none
  maxIndexNameLength : Option Nat := none
  maxSequenceNameLength : Option Nat := none
  maxAutoAssignNameLength : Option Nat := none
  /-- More reserved words. -/
  reservedWords : List String := []
  /-- The names of types, each with what the type is called here. -/
  typeNames : List (String × String) := []
  forUpdateClause : Option String := none
  delimitIdentifiers : Option Bool := none
  quoteStyle : Option QuoteStyle := none
  constraintNaming : Option ConstraintNaming := none
  triggersForAutoAssign : Option Bool := none
  deriving DecidableEq

namespace Overrides

def isEmpty (o : Overrides) : Bool := o = {}

def lengths (o : Overrides) : List Nat :=
  [o.maxTableNameLength, o.maxColumnNameLength, o.maxConstraintNameLength, o.maxIndexNameLength,
    o.maxSequenceNameLength, o.maxAutoAssignNameLength].filterMap id

def insertByKey (x : String × String) : List (String × String) → List (String × String)
  | [] => [x]
  | y :: ys => if y.1 < x.1 then y :: insertByKey x ys else x :: y :: ys

/--
The types that get a new name, in the order of how they are called. Where two names stand for one
type the later one counts.
-/
def typeCodes (o : Overrides) : Except OverrideError (List (TypeCode × String)) :=
  (o.typeNames.foldr insertByKey []).mapM fun (name, typeName) =>
    match TypeCode.read name with
    | .ok code => .ok (code, typeName)
    | .error e => .error (.unknownType e)

def adjust (o : Overrides) (codes : List (TypeCode × String)) (p : Profile) : Profile :=
  let adjusted : Profile := { p with
    joinSyntax := o.joinSyntax.getD p.joinSyntax
    rangePosition := o.rangePosition.getD p.rangePosition
    capabilities := (p.capabilities.insertMany o.enable).eraseMany o.disable
    clauses.forUpdate := o.forUpdateClause.or p.clauses.forUpdate
    types := p.types.setMany codes
    naming :=
      { maxTableNameLength := o.maxTableNameLength.getD p.naming.maxTableNameLength
        maxColumnNameLength := o.maxColumnNameLength.getD p.naming.maxColumnNameLength
        maxConstraintNameLength :=
          o.maxConstraintNameLength.getD p.naming.maxConstraintNameLength
        maxIndexNameLength := o.maxIndexNameLength.getD p.naming.maxIndexNameLength
        maxSequenceNameLength := o.maxSequenceNameLength.getD p.naming.maxSequenceNameLength
        maxAutoAssignNameLength :=
          o.maxAutoAssignNameLength.getD p.naming.maxAutoAssignNameLength
        reservedWords :=
          p.naming.reservedWords.insertMany (o.reservedWords.map Text.upperAscii)
        constraintNaming := o.constraintNaming.getD p.naming.constraintNaming
        delimitIdentifiers := o.delimitIdentifiers.getD p.naming.delimitIdentifiers
        quoteStyle := o.quoteStyle.getD p.naming.quoteStyle } }
  match o.triggersForAutoAssign with
  | some enabled => adjusted.withTriggerAutoAssign enabled
  | none => adjusted

def apply (o : Overrides) (p : Profile) : Except OverrideError Profile := do
  if let some c := o.enable.find? (o.disable.contains ·) then
    throw (.conflict c)
  if o.lengths.contains 0 then
    throw .zeroLength
  let codes ← o.typeCodes
  return o.adjust codes p

end Overrides

end SqlDialect
