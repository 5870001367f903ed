import SqlDialect.Join.Graph
import SqlDialect.Join.Traversal

/-!
This module contains the FROM clause of a select. In two of the three notations the tables are
listed and every join is a condition in WHERE. In the third one a join is a clause of its own, and
the tables are named in the order in which a traversal of the joins reaches them.
-/

namespace SqlDialect

structure FromClause where
  sql : String
  conditions : List String
  deriving DecidableEq, Repr

structure JoinClause where
  joined : Alias
  kind : JoinKind
  /-- The condition of the join, which a cross join does not have. -/
  condition : Option String
  /-- The conditions of outer joins that close a cycle with this table. -/
  further : List String := []

structure JoinChain where
  start : Alias
  clauses : List JoinClause := []
  /-- The conditions of joins for which there is no clause. -/
  conditions : List String := []

namespace JoinEdge

def condition? (e : JoinEdge) (p : Profile) : Compile (Option String) :=
  if e.kind = .cross then
    return none
  else
    some <$> e.predicate p ""

end JoinEdge

namespace JoinChain

def aliases (c : JoinChain) : List Alias := c.start :: c.clauses.map (·.joined)

def precedes (c : JoinChain) (a b : Alias) : Bool :=
  match c.aliases.idxOf? a, c.aliases.idxOf? b with
  | some i, some j => i < j
  | _, _ => false

def restrict (c : JoinChain) (a : Alias) (condition : String) : JoinChain :=
  { c with
    clauses := c.clauses.map fun clause =>
      if clause.joined = a then
        { clause with further := clause.further ++ [condition] }
      else
        clause }

/--
Add a join to a chain. A join that closes a cycle is a condition on the rows: in the clause of the
optional table, if the join is an outer one and the table is named last, or else in WHERE.
-/
def add (p : Profile) (c : JoinChain) (step : JoinStep) : Compile JoinChain := do
  let e := step.edge
  let condition? ← e.condition? p
  match step.joined, condition? with
  | some a, condition =>
    return { c with clauses := c.clauses ++ [{ joined := a, kind := e.kind, condition }] }
  | none, none => return c
  | none, some condition =>
    if e.kind = .outer ∧ c.precedes e.source e.target then
      return c.restrict e.target condition
    else
      return { c with conditions := c.conditions ++ [condition] }

def ofSteps (p : Profile) (start : Alias) (steps : List JoinStep) : Compile JoinChain :=
  steps.foldlM (add p) { start }

end JoinChain

namespace JoinGraph

def tableReference (g : JoinGraph) (p : Profile) (hint : Option String) (a : Alias) :
    Compile String :=
  let hintTokens : List Token :=
    match hint with
    | none => []
    | some hint => [.space, .raw hint]
  Token.serializeAll p ([.ident ((g.table? a).getD ""), .space, .tableAlias a] ++ hintTokens)

def writeClause (g : JoinGraph) (p : Profile) (hint : Option String) (c : JoinClause) :
    Compile String := do
  let table ← g.tableReference p hint c.joined
  let clause :=
    match c.kind with
    | .inner => s!"{p.clauses.innerJoin} {table}"
    | .outer => s!"{p.clauses.outerJoin} {table}"
    | .cross => s!"{p.clauses.crossJoin} {table}"
  let on :=
    match c.condition with
    | some condition => s!" ON {condition}"
    | none => if p.requirements.conditionForCrossJoin then " ON (1 = 1)" else ""
  return clause ++ on ++ String.join (c.further.map (" AND " ++ ·))

def writeChain (g : JoinGraph) (p : Profile) (hint : Option String) (c : JoinChain) :
    Compile String := do
  let start ← g.tableReference p hint c.start
  return " ".intercalate (start :: (← c.clauses.mapM (g.writeClause p hint)))

def chainedFrom (g : JoinGraph) (p : Profile) (hint : Option String) (aliases : List Alias)
    (edges : List JoinEdge) : Compile FromClause := do
  let chains ←
    (Traversal.chains { remaining := edges } aliases).mapM fun (start, steps) =>
      JoinChain.ofSteps p start steps
  return {
    sql := ", ".intercalate (← chains.mapM (g.writeChain p hint))
    conditions := chains.flatMap (·.conditions) }

def listedFrom (g : JoinGraph) (p : Profile) (hint : Option String) (aliases : List Alias)
    (edges : List JoinEdge) (predicate : JoinEdge → Compile String) : Compile FromClause := do
  let conditions ← (edges.filter (·.kind ≠ .cross)).mapM predicate
  return {
    sql := ", ".intercalate (← aliases.mapM (g.tableReference p hint))
    conditions }

/--
The FROM clause of a select. The joins with tables of the selects around it are conditions in WHERE,
and stand before all others.
-/
def fromClause (g : JoinGraph) (id : ScopeId) (p : Profile) (hint : Option String) :
    Compile FromClause := do
  let s ← g.scope id
  if s.entries.isEmpty then
    throw (.aliasing (.noTables id))
  let outward := s.edges.filter fun e => !s.isLocal e && e.kind ≠ .cross
  let inward := s.edges.filter s.isLocal
  let correlations ← outward.mapM (·.predicate p "")
  let clause ←
    match s.joinSyntax with
    | .sql92 => g.chainedFrom p hint s.aliases inward
    | .traditional => g.listedFrom p hint s.aliases inward (·.predicate p "")
    | .native => g.listedFrom p hint s.aliases inward (·.nativePredicate p)
  return { clause with conditions := correlations ++ clause.conditions }

end JoinGraph

end SqlDialect
