import SqlDialect.Error
import SqlDialect.Profile.Grammar
import SqlDialect.Text.Ascii
import SqlDialect.Text.Quoted
import SqlDialect.Text.WordSet
import SqlDialect.TypeCode
import SqlDialect.Vendor

/-!
This module contains profiles. A profile says what one dialect can express and how it writes it;
every decision about the text of a statement is read off the profile.
-/

namespace SqlDialect

structure Requirements where
  /-- A select in FROM needs an alias. -/
  aliasForSubselect : Bool
  /-- `DELETE t0 FROM ...` in place of `DELETE FROM ...`. -/
  targetForDelete : Bool
  allowsAliasInBulkClause : Bool
  /-- A cross join needs `ON (1 = 1)`. -/
  conditionForCrossJoin : Bool
  wildcardForCount : Bool
  createPrimaryKeys : Bool
  /-- Leave lock clauses out. -/
  simulateLocking : Bool
  /-- Fill auto-assigned columns from a sequence, in a trigger. -/
  triggersForAutoAssign : Bool
  deriving DecidableEq

structure Clauses where
  innerJoin : String
  outerJoin : String
  crossJoin : String
  forUpdate : Option String
  /-- Written after each table of a locked select. -/
  tableForUpdate : Option String
  distinctCountColumnSeparator : Option String
  autoAssign : Option String
  /-- Written after the optional side of an outer join in the vendor's notation. -/
  nativeOuterJoinMarker : Option String
  dropTable : String
  deriving DecidableEq

structure Functions where
  cast : String
  toLower : String
  toUpper : String
  stringLength : String
  trimLeading : String
  trimTrailing : String
  trimBoth : String
  concatenate : String
  /-- A plain name. -/
  substring : String
  indexOf : String
  indexOfFrom : String
  modulo : String
  currentDate : String
  currentTime : String
  currentTimestamp : String
  booleanStyle : BooleanStyle
  deriving DecidableEq

structure TypeNames where
  /-- The names that are not `TypeCode.name`. -/
  names : TypeCode → Option String
  /-- The type of auto-assigned columns. -/
  autoAssign : Option String
  /-- The names that never take a size, in upper case. -/
  fixedSize : WordSet
  /-- The words before which a size is inserted, in upper case. -/
  modifiers : WordSet

def TypeNames.set (t : TypeNames) (code : TypeCode) (name : String) : TypeNames :=
  { t with names := fun c => if c = code then some name else t.names c }

def TypeNames.setMany (t : TypeNames) (names : List (TypeCode × String)) : TypeNames :=
  names.foldl (fun t (code, name) => t.set code name) t

structure Naming where
  maxTableNameLength : Nat
  maxColumnNameLength : Nat
  maxConstraintNameLength : Nat
  maxIndexNameLength : Nat
  maxSequenceNameLength : Nat
  maxAutoAssignNameLength : Nat
  /-- In upper case. -/
  reservedWords : WordSet
  constraintNaming : ConstraintNaming
  delimitIdentifiers : Bool
  quoteStyle : QuoteStyle

def Naming.withMaxLengths (n : Naming) (max : Nat) : Naming :=
  { n with
    maxTableNameLength := max
    maxColumnNameLength := max
    maxConstraintNameLength := max
    maxIndexNameLength := max
    maxSequenceNameLength := max
    maxAutoAssignNameLength := max }

structure Profile where
  vendor : Vendor
  /-- The name of the dialect in messages. -/
  platform : String
  joinSyntax : JoinSyntax
  rangePosition : RangePosition
  paging : Paging
  locking : Locking
  capabilities : CapabilitySet
  requirements : Requirements
  clauses : Clauses
  functions : Functions
  types : TypeNames
  naming : Naming

namespace Profile

def supports (p : Profile) (c : Capability) : Bool := c ∈ p.capabilities

def require (p : Profile) (c : Capability) : Compile Unit :=
  if p.supports c then .ok () else .error (.unsupported c p.platform)

def maxNameLength (p : Profile) : NameKind → Nat
  | .table => p.naming.maxTableNameLength
  | .column => p.naming.maxColumnNameLength
  | .constraint => p.naming.maxConstraintNameLength
  | .index => p.naming.maxIndexNameLength
  | .sequence => p.naming.maxSequenceNameLength
  | .autoAssign => p.naming.maxAutoAssignNameLength

def isReserved (p : Profile) (word : String) : Bool :=
  Text.upperAscii word ∈ p.naming.reservedWords

def quoteIdentifier (p : Profile) (name : String) : String :=
  if p.naming.delimitIdentifiers then
    Text.quote p.naming.quoteStyle.opening p.naming.quoteStyle.closing name
  else
    name

def formatBool (p : Profile) (b : Bool) : String := p.functions.booleanStyle.text b

def withTypeModifiers (p : Profile) (modifiers : List String) : Profile :=
  { p with types.modifiers := .ofList (modifiers.map Text.upperAscii) }

/--
Fill auto-assigned columns in a trigger, or stop doing so. Triggers make auto-assigned columns
available.
-/
def withTriggerAutoAssign (p : Profile) (enabled : Bool) : Profile :=
  { p with
    requirements.triggersForAutoAssign := enabled
    capabilities := if enabled then p.capabilities.insert .autoAssign else p.capabilities }

theorem require_eq_ok_iff {p : Profile} {c : Capability} {u : Unit} :
    p.require c = .ok u ↔ p.supports c = true := by
  unfold require
  split <;> simp_all

end Profile

end SqlDialect
