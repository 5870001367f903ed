import SqlDialect.Expr.Render
import SqlDialect.Query.Basic

/-!
This module contains the text of queries. A nested select is rendered where an expression refers to
it, so rendering goes from scope to scope; scopes that refer to each other in a circle have no text.
-/

namespace SqlDialect

structure OutputColumn where
  /-- Counted from one. -/
  index : Nat
  item : SelectItem

structure CompiledSelect where
  sql : String
  params : List String
  columns : List OutputColumn
  /-- How many rows the caller has to pass over. -/
  skipRows : Nat
  /-- How many rows the caller may take. -/
  maxRows : Option Nat

structure SelectSource where
  tables : String
  condition : Option Rendered

namespace Rendered

def parens (r : Rendered) : Rendered := { r with sql := "(" ++ r.sql ++ ")" }

def conjunction? (conditions : List Rendered) : Option Rendered :=
  if conditions.isEmpty then
    none
  else
    some ⟨" AND ".intercalate (conditions.map (·.sql)), conditions.flatMap (·.params)⟩

end Rendered

namespace Select

def labelTokens (item : SelectItem) (place : Nat) (numbered : Bool) : List Token :=
  match item.label, numbered with
  | some label, _ => [.space, .keyword .as, .space, .ident label]
  | none, true => [.space, .keyword .as, .space, .raw s!"c{place}"]
  | none, false => []

def itemList (s : Select) (ctx : RenderContext) (numbered : Bool) : Compile Fragment := do
  let items ← s.items.zipIdx.mapM fun (item, place) => do
    return (← item.expr.fragment ctx) ++ .ofTokens (labelTokens item place numbered)
  return Fragment.commaSep items

/--
The conditions that were put on a select. If they do not stand alone, an OR needs parentheses.
-/
def conditionList (s : Select) (ctx : RenderContext) (others : Nat) : Compile (List Rendered) :=
  s.conditions.mapM fun e => do
    let r ← e.sql ctx
    return if 1 < s.conditions.length + others ∧ e.isOr then r.parens else r

def groupByClause (s : Select) (ctx : RenderContext) : Compile Fragment := do
  if s.groupBy.isEmpty then
    return .empty
  let exprs ← s.groupBy.mapM (·.fragment ctx)
  return .ofTokens [.space, .keyword .groupBy, .space] ++ .commaSep exprs

def havingClause (s : Select) (ctx : RenderContext) : Compile Fragment := do
  if s.having.isEmpty then
    return .empty
  let conditions ← s.having.mapM (·.fragment ctx)
  return .ofTokens [.space, .keyword .having, .space]
    ++ .separated [.space, .keyword .and, .space] conditions

def orderByClause (s : Select) (ctx : RenderContext) : Compile Fragment := do
  let items ← s.orderBy.mapM fun item => do
    return (← item.expr.fragment ctx) ++ .ofTokens [.space, item.direction]
  return .ofTokens [.space, .keyword .orderBy, .space] ++ .commaSep items

end Select

namespace Query

/--
The tables of a select, with the conditions on its rows: those that were put on it, those of its
joins, and that of its row range.
-/
def source (q : Query) (id : ScopeId) (ctx : RenderContext) (hint : Option String) :
    Compile SelectSource := do
  let s ← q.select id
  let tables ← q.graph.fromClause id q.profile hint
  let implied :=
    tables.conditions ++ (q.profile.paging.condition? s.range (q.shape id s)).toList
  let explicit ← s.conditionList ctx implied.length
  return {
    tables := tables.sql
    condition := Rendered.conjunction? (explicit ++ implied.map (⟨·, []⟩)) }

def body (q : Query) (id : ScopeId) (ctx : RenderContext) (hint : Option String) (ordered : Bool) :
    Compile Fragment := do
  let s ← q.select id
  let source ← q.source id ctx hint
  let tables := Fragment.ofTokens [.keyword .from_, .space, .raw source.tables]
  let condition :=
    match source.condition with
    | some c => .ofTokens [.space, .keyword .where_, .space] ++ .ofRendered c
    | none => .empty
  let groupBy ← s.groupByClause ctx
  let having ← s.havingClause ctx
  let orderBy ← if ordered then s.orderByClause ctx else pure .empty
  return tables ++ condition ++ groupBy ++ having ++ orderBy

/--
The text of a select. Only the outermost one is locked.
-/
def renderScope (q : Query) (id : ScopeId) (lock : LockRequest) (ctx : RenderContext) :
    Compile Rendered := do
  let p := q.profile
  let s ← q.select id
  if s.items.isEmpty then
    throw (.aliasing (.noItems id))
  let shape := q.shape id s
  let forUpdate := lock.forUpdate && id == .root
  if forUpdate then
    (← q.lockTarget id lock).check p
  let lockClause ← p.locking.clause? p lock.effectiveIsolation? forUpdate (id ≠ .root)
  let hint :=
    if forUpdate && !p.requirements.simulateLocking then p.clauses.tableForUpdate else none
  let wraps := p.paging.wraps s.range shape
  let items ← s.itemList ctx (wraps && 1 < (← q.tableCount id))
  let body ← q.body id ctx hint shape.ordered
  let rangeAt (position : RangePosition) : List Token :=
    if p.rangePosition = position then p.paging.clause s.range shape else []
  let head :=
    [.keyword .select] ++ rangeAt .preDistinct
      ++ (if shape.distinct then [.space, .keyword .distinct] else [])
      ++ rangeAt .postDistinct ++ [.space]
  let lockTokens :=
    match lockClause with
    | some clause => [.space, .raw clause]
    | none => []
  let tail := rangeAt .postSelect ++ lockTokens ++ rangeAt .postLock
  let select := .ofTokens head ++ items ++ .ofTokens [.space] ++ body ++ .ofTokens tail
  let inner ← Fragment.serialize p select
  return { inner with sql := p.paging.wrap inner.sql s.range shape }

/--
The text of a select that an expression refers to. At most `depth` selects are followed into each
other.
-/
def renderNested (q : Query) (depth : Nat) (id : ScopeId) : Compile Rendered :=
  if id = .root then
    .error (.aliasing .nestedRoot)
  else
    match depth with
    | 0 => .error (.aliasing .endlessNesting)
    | depth + 1 =>
      q.renderScope id .unlocked { profile := q.profile, subselect := q.renderNested depth }

/--
The rendering of expressions in a query. Selects that do not refer to each other in a circle are
never nested deeper than their number.
-/
def context (q : Query) : RenderContext :=
  { profile := q.profile, subselect := q.renderNested q.selects.length }

def renderUnlocked (q : Query) (id : ScopeId) : Compile Rendered :=
  q.renderScope id .unlocked q.context

def render (q : Query) (lock : LockRequest) : Compile CompiledSelect := do
  let r ← q.renderScope .root lock q.context
  let s ← q.select .root
  return {
    sql := r.sql
    params := r.params
    columns := s.items.zipIdx.map fun (item, i) => ⟨i + 1, item⟩
    skipRows := q.profile.paging.skipRows s.range (q.shape .root s)
    maxRows := q.profile.paging.maxRows? s.range }

end Query

end SqlDialect
