/-!
This module contains the reports about names that stand for nothing.
-/

namespace SqlDialect

inductive UnknownName where
  | vendor (text : String)
  | typeCode (text : String)
  | isolation (text : String)
  deriving DecidableEq, Repr

def UnknownName.message : UnknownName → String
  | .vendor text => s!"unknown vendor: {text}"
  | .typeCode text => s!"unknown type code: {text}"
  | .isolation text => s!"unknown isolation level: {text}"

end SqlDialect
