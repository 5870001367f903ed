/-!
This module contains the names of things inside one statement: the alias of a table occurrence, the
scope of a select, and the path along which a table occurrence is reached.
-/

namespace SqlDialect

/--
An occurrence of a table in a statement.
-/
structure Alias where
  index : Nat
  deriving DecidableEq, Repr

instance : ToString Alias where
  toString a := s!"t{a.index}"

/--
A select of a statement: the statement's own or one nested in it.
-/
structure ScopeId where
  index : Nat
  deriving DecidableEq, Repr

def ScopeId.root : ScopeId := ⟨0⟩

inductive PathStep where
  | relation (name : String)
  /-- A variable that stands for a table of the scope that declares it. -/
  | variable_ (name : String)
  deriving DecidableEq, Repr

instance : ToString PathStep where
  toString
    | .relation name => name
    | .variable_ name => s!":{name}"

/--
The steps that lead from the table of a select to another table.
-/
structure JoinPath where
  steps : List PathStep
  deriving DecidableEq, Repr

namespace JoinPath

def root : JoinPath := ⟨[]⟩

def ofVariable (variableName : String) : JoinPath := ⟨[.variable_ variableName]⟩

def join (p : JoinPath) (relation : String) (variableName : Option String) : JoinPath :=
  ⟨p.steps ++ .relation relation :: (variableName.map PathStep.variable_).toList⟩

def isRoot (p : JoinPath) : Bool := p.steps.isEmpty

def rootVariable? (p : JoinPath) : Option String :=
  match p.steps with
  | .variable_ name :: _ => some name
  | _ => none

instance : ToString JoinPath where
  toString p := ".".intercalate (p.steps.map toString)

end JoinPath

end SqlDialect
