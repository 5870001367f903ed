import SqlDialect.Capability
import SqlDialect.Join.Path
import SqlDialect.Number.Binary64

/-!
This module contains the reasons for which a statement cannot be compiled, and their wording.
-/

namespace SqlDialect

inductive AliasError where
  | unknownScope (scope : ScopeId)
  | notJoined (table : String) (path : JoinPath)
  | noOpenOr (scope : ScopeId)
  | noBranches
  | noTables (scope : ScopeId)
  | noItems (scope : ScopeId)
  | noRenderer (scope : ScopeId)
  | nestedRoot
  /-- Following the nested selects never ends. -/
  | endlessNesting
  deriving DecidableEq

def AliasError.message : AliasError → String
  | .unknownScope scope => s!"unknown scope {scope.index}"
  | .notJoined table path => s!"table {table} was never joined at path '{path}'"
  | .noOpenOr scope => s!"no OR open in scope {scope.index}"
  | .noBranches => "OR with no branches"
  | .noTables scope => s!"scope {scope.index} selects from no tables"
  | .noItems scope => s!"select list of scope {scope.index} is empty"
  | .noRenderer scope => s!"no sub-select renderer for scope {scope.index}"
  | .nestedRoot => "the root select cannot be nested in itself"
  | .endlessNesting => "a nested select is nested in itself"

inductive FloatTokenError where
  | nan
  | infinite
  deriving DecidableEq

def FloatTokenError.message : FloatTokenError → String
  | .nan => "Cannot serialize NaN to SQL"
  | .infinite => "Cannot serialize Infinity to SQL"

inductive CompileError where
  /-- The dialect cannot express a feature. -/
  | unsupported (capability : Capability) (dialect : String)
  | nameTooLong (name : String) (length max : Nat)
  /-- Every name that can be derived from a name is taken. -/
  | nameSpaceExhausted (name : String)
  | aliasing (cause : AliasError)
  /-- An outer join in the vendor's notation cannot compare with a constant. -/
  | nativeJoinConstant (table : String)
  /-- A float has no text. If that is not noticed before it is to be written, there is a panic. -/
  | nonFiniteLiteral (value : Binary64) (panic : Option FloatTokenError := none)
  deriving DecidableEq

namespace CompileError

def message : CompileError → String
  | .unsupported capability dialect => s!"{dialect} does not support {capability.description}"
  | .nameTooLong name length max =>
    s!"name \"{name}\" is {length} characters long; the maximum is {max}"
  | .nameSpaceExhausted name => s!"no unique name can be derived from \"{name}\""
  | .aliasing cause => s!"alias resolution failed: {cause.message}"
  | .nativeJoinConstant table => s!"native outer join to {table} cannot carry constant join columns"
  | .nonFiniteLiteral _ (some cause) => cause.message
  | .nonFiniteLiteral value none => s!"float literal {value.specialName} has no SQL representation"

def isUnsupported : CompileError → Bool
  | .unsupported .. => true
  | _ => false

end CompileError

abbrev Compile (α : Type) := Except CompileError α

end SqlDialect
