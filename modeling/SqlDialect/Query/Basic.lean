import SqlDialect.Join.From
import SqlDialect.Lock
import SqlDialect.Query.Select

/-!
This module contains queries and how they are put together. A query is a select together with the
selects that are nested in it. All of them share one join graph, so that their aliases differ.
-/

namespace SqlDialect

structure Query where
  profile : Profile
  graph : JoinGraph
  /-- What each scope of the graph asks for. -/
  selects : List Select

namespace Query

def new (p : Profile) : Query := { profile := p, graph := .new p.joinSyntax, selects := [{}] }

def select? (q : Query) (id : ScopeId) : Option Select := q.selects[id.index]?

def select (q : Query) (id : ScopeId) : Compile Select :=
  match q.select? id with
  | some s => .ok s
  | none => .error (.aliasing (.unknownScope id))

def modifySelect (q : Query) (id : ScopeId) (f : Select → Select) : Query :=
  { q with selects := q.selects.modify id.index f }

def edit (q : Query) (id : ScopeId) (f : Select → Select) : Compile Query := do
  let _ ← q.select id
  return q.modifySelect id f

def withGraph {α : Type} (q : Query) (f : JoinGraph → Compile (α × JoinGraph)) :
    Compile (α × Query) := do
  let (a, graph) ← f q.graph
  return (a, { q with graph })

def subselect (q : Query) (parent : ScopeId) : Compile (ScopeId × Query) := do
  q.profile.require .subselect
  let _ ← q.select parent
  let (id, graph) ← q.graph.subselect parent
  return (id, { q with graph, selects := q.selects ++ [{}] })

def declareVariable (q : Query) (id : ScopeId) (variableName : String) : Compile Query :=
  return { q with graph := ← q.graph.declareVariable id variableName }

def aliasAt (q : Query) (id : ScopeId) (table : Table) (path : JoinPath) :
    Compile (Alias × Query) :=
  q.withGraph (·.requireAlias id table path)

def fromTable (q : Query) (id : ScopeId) (table : Table) : Compile (Alias × Query) :=
  q.aliasAt id table .root

def join (q : Query) (id : ScopeId) (path : JoinPath) (rel : Relation) :
    Compile (JoinedTable × Query) :=
  q.withGraph (·.join id path rel .inner)

def outerJoin (q : Query) (id : ScopeId) (path : JoinPath) (rel : Relation) :
    Compile (JoinedTable × Query) :=
  q.withGraph (·.join id path rel .outer)

def crossJoin (q : Query) (id : ScopeId) (source : Table) (path : JoinPath) (target : Table)
    (variableName : String) : Compile (JoinedTable × Query) :=
  q.withGraph (·.crossJoin id source path target variableName)

def addItem (q : Query) (id : ScopeId) (item : SelectItem) : Compile (Nat × Query) := do
  let (position, s) := (← q.select id).addItem item
  return (position, q.modifySelect id fun _ => s)

def addCondition (q : Query) (id : ScopeId) (condition : Expr) : Compile Query :=
  q.edit id fun s => { s with conditions := s.conditions ++ [condition] }

def addHaving (q : Query) (id : ScopeId) (condition : Expr) : Compile Query := do
  q.profile.require .having
  q.edit id fun s => { s with having := s.having ++ [condition] }

def addGrouping (q : Query) (id : ScopeId) (expr : Expr) : Compile Query :=
  q.edit id fun s => { s with groupBy := s.groupBy ++ [expr] }

def addOrder (q : Query) (id : ScopeId) (item : OrderItem) (selected : Bool) : Compile Query := do
  let q ←
    if selected then
      Prod.snd <$> q.addItem id { expr := item.expr }
    else
      pure q
  q.edit id fun s => { s with orderBy := s.orderBy ++ [item] }

def setRange (q : Query) (id : ScopeId) (range : RowRange) : Compile Query :=
  q.edit id fun s => { s with range }

def setDistinct (q : Query) (id : ScopeId) (distinct : Bool) : Compile Query :=
  q.edit id fun s => { s with distinct }

def setNotDistinct (q : Query) (id : ScopeId) (notDistinct : Bool) : Compile Query :=
  q.edit id fun s => { s with notDistinct }

def setAutoDistinct (q : Query) (id : ScopeId) (autoDistinct : Bool) : Compile Query :=
  q.edit id fun s => { s with autoDistinct }

def setAggregate (q : Query) (id : ScopeId) (aggregate : Bool) : Compile Query :=
  q.edit id fun s => { s with aggregate }

def isDistinct (q : Query) (id : ScopeId) : Bool :=
  match q.select? id with
  | none => false
  | some s =>
    q.graph.isToMany id
      || !s.notDistinct && (s.distinct || s.autoDistinct && q.graph.isImplicitlyDistinct id)

def hasConditions (q : Query) (id : ScopeId) : Bool :=
  (q.select? id).any (!·.conditions.isEmpty)

def tableCount (q : Query) (id : ScopeId) : Compile Nat :=
  return (← q.graph.scope id).entries.length

def shape (q : Query) (id : ScopeId) (s : Select) : SelectShape :=
  { distinct := q.isDistinct id
    ordered := s.isOrdered
    grouped := s.isGrouped
    nested := id ≠ .root }

def lockTarget (q : Query) (id : ScopeId) (lock : LockRequest) : Compile LockTarget := do
  let s ← q.select id
  let scope ← q.graph.scope id
  let shape := q.shape id s
  return {
    aggregate := s.isAggregate
    distinct := shape.distinct || lock.toManyEagerJoin
    tables := scope.entries.length
    ordered := shape.ordered
    ranged := !s.range.isAll
    rangeWraps := q.profile.paging.wraps s.range shape
    innerJoin := scope.edges.any (·.kind ≠ .outer)
    outerJoin := scope.edges.any (·.kind = .outer) }

def supportsLocking (q : Query) (lock : LockRequest) : Bool :=
  match q.lockTarget .root lock >>= (·.check q.profile) with
  | .ok () => true
  | .error _ => false

end Query

end SqlDialect
