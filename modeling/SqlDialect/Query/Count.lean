import SqlDialect.Query.Render

/-!
This module contains the statement that counts the rows of a query.
-/

namespace SqlDialect

namespace Query

def countRows : Expr := .aggregateRows .count false

def identifiers (q : Query) (s : Select) : List Expr :=
  if q.isDistinct .root then (s.items.filter (·.identifier)).map (·.expr) else []

/--
What a query has to select for its rows to be counted, if it can be changed into their count. A
query that groups its rows or takes a range of them cannot.
-/
def directCount? (q : Query) (s : Select) : Compile (Option Fragment) := do
  let ctx := q.context
  if !s.groupBy.isEmpty || !s.range.isAll then
    return none
  if q.profile.requirements.wildcardForCount then
    return some (← countRows.fragment ctx)
  match q.identifiers s, q.profile.clauses.distinctCountColumnSeparator with
  | [], _ => return some (← countRows.fragment ctx)
  | [e], _ => return some (← (Expr.aggregate .count e true).fragment ctx)
  | _, none => return none
  | es, some separator =>
    let columns ← es.mapM (·.sql ctx)
    let list := (" " ++ separator ++ " ").intercalate (columns.map (·.sql))
    return some ⟨[.raw s!"COUNT(DISTINCT {list})"], columns.flatMap (·.params)⟩

def renderCount (q : Query) : Compile CompiledSelect := do
  let p := q.profile
  let s ← q.select .root
  let r : Rendered ←
    match ← q.directCount? s with
    | some count => do
      let body ← q.body .root q.context none false
      let head : Fragment := .ofTokens [.keyword .select, .space] ++ count ++ .ofTokens [.space]
      (head ++ body).serialize p
    | none => do
      p.require .subselect
      let inner ← q.renderUnlocked .root
      let name := if p.requirements.aliasForSubselect then " s" else ""
      pure { inner with sql := s!"SELECT COUNT(*) FROM ({inner.sql}){name}" }
  return {
    sql := r.sql
    params := r.params
    columns := [⟨1, { expr := countRows }⟩]
    skipRows := 0
    maxRows := none }

end Query

end SqlDialect
