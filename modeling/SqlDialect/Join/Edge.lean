import SqlDialect.Expr.Render
import SqlDialect.Schema.Basic

/-!
This module contains joins: the relations along which tables are joined, and the edges between
aliases that record them.
-/

namespace SqlDialect

structure Relation where
  name : String
  source : Table
  target : Table
  foreignKey : ForeignKey
  /-- The foreign key belongs to the target. -/
  inverse : Bool := false
  toMany : Bool := false
  /-- A variable to stand for the target. -/
  variableName : Option String := none

inductive JoinKind where
  | inner
  | outer
  | cross
  deriving DecidableEq, Repr

structure JoinEdge where
  sourceTable : String
  source : Alias
  targetTable : String
  target : Alias
  foreignKey : Option ForeignKey
  inverse : Bool
  kind : JoinKind
  /-- One side belongs to a select around this one. -/
  correlated : Bool
  deriving DecidableEq

namespace JoinEdge

def samePair (e f : JoinEdge) : Bool :=
  e.source == f.source && e.target == f.target || e.source == f.target && e.target == f.source

def touches (e : JoinEdge) (a : Alias) : Bool := e.source == a || e.target == a

def otherEnd (e : JoinEdge) (a : Alias) : Alias := if e.source = a then e.target else e.source

def columnPairs (e : JoinEdge) : List (String × String) :=
  match e.foreignKey with
  | none => []
  | some fk =>
    (fk.columns.zip fk.primaryKeyColumns).map fun (column, key) =>
      if e.inverse then (key, column) else (column, key)

def constants (e : JoinEdge) : List (Alias × String × Literal) :=
  match e.foreignKey with
  | none => []
  | some fk =>
    let (owner, referenced) := if e.inverse then (e.target, e.source) else (e.source, e.target)
    fk.constantColumns.map (owner, ·) ++ fk.constantPrimaryKeyColumns.map (referenced, ·)

def hasConstants (e : JoinEdge) : Bool := e.foreignKey.any (·.hasConstants)

def comparison (e : JoinEdge) (p : Profile) (marker : String) (pair : String × String) :
    Compile String :=
  Token.serializeAll p
    (Token.column e.source pair.1 ++ [.raw " = "] ++ Token.column e.target pair.2 ++ [.raw marker])

def constantComparison (p : Profile) (c : Alias × String × Literal) : Compile String := do
  let value ← c.2.2.token
  Token.serializeAll p (Token.column c.1 c.2.1 ++ [.raw " = ", value])

def predicate (e : JoinEdge) (p : Profile) (marker : String) : Compile String := do
  let comparisons ← e.columnPairs.mapM (e.comparison p marker)
  let constants ← e.constants.mapM (constantComparison p)
  return " AND ".intercalate (comparisons ++ constants)

def nativePredicate (e : JoinEdge) (p : Profile) : Compile String :=
  if e.kind = .outer then
    if e.hasConstants then
      .error (.nativeJoinConstant e.targetTable)
    else
      e.predicate p (p.clauses.nativeOuterJoinMarker.getD "")
  else
    e.predicate p ""

/--
The kind of a join that only some branches of an OR ask for: outer, where that can be expressed.
-/
def promotedKind (e : JoinEdge) (joinSyntax : JoinSyntax) : JoinKind :=
  match e.kind, joinSyntax with
  | .inner, .traditional => .inner
  | .inner, .native => if e.hasConstants then .inner else .outer
  | .inner, .sql92 => .outer
  | kind, _ => kind

end JoinEdge

def recordEdge (edges : List JoinEdge) (e : JoinEdge) : List JoinEdge :=
  if edges.any (·.samePair e) then edges else edges ++ [e]

end SqlDialect
