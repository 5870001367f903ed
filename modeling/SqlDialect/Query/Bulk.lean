import SqlDialect.Query.Render

/-!
This module contains statements that delete or update all rows of a select. A statement can change
the rows of one table only, so a select with more than that table becomes a nested select on the
primary key.
-/

namespace SqlDialect

inductive BulkAction where
  | delete
  /-- Give new values to columns. -/
  | update (assignments : List (String × Expr))

namespace BulkAction

def setClause (action : BulkAction) (ctx : RenderContext) (qualifier : Option Alias) :
    Compile Fragment := do
  match action with
  | .delete => return .empty
  | .update assignments =>
    let ctx := { ctx with qualify := qualifier.isSome }
    let parts ← assignments.mapM fun (column, value) => do
      let target :=
        match qualifier with
        | some a => Token.column a column
        | none => [.ident column]
      return .ofTokens (target ++ [.space, .symbol .eq, .space]) ++ (← value.fragment ctx)
    return .ofTokens [.space, .keyword .set_, .space] ++ .commaSep parts

end BulkAction

namespace Query

def aliasedBulk (q : Query) (action : BulkAction) (id : ScopeId) (table : Table) :
    Compile Rendered := do
  let a ← q.graph.aliasOf id table .root
  let set ← action.setClause q.context a
  let source ← q.source id q.context none
  let head :=
    match action with
    | .update _ => [.keyword .update, .space, .raw source.tables]
    | .delete =>
      let target := if q.profile.requirements.targetForDelete then [.tableAlias a, .space] else []
      [.keyword .delete, .space] ++ target ++ [.keyword .from_, .space, .raw source.tables]
  let condition :=
    match source.condition with
    | some c => .ofTokens [.space, .keyword .where_, .space] ++ .ofRendered c
    | none => .empty
  Fragment.serialize q.profile (.ofTokens head ++ set ++ condition)

def bulkHead (q : Query) (action : BulkAction) (table : Table) : Compile Fragment := do
  let head :=
    match action with
    | .update _ => [.keyword .update, .space]
    | .delete => [.keyword .delete, .space, .keyword .from_, .space]
  return .ofTokens (head ++ [.ident table.fullName]) ++ (← action.setClause q.context none)

def keyComparison (p : Profile) (a : Alias) (table : Table) (column : String) : Compile String :=
  Token.serializeAll p
    (Token.column a column ++ [.raw " = ", .ident table.fullName, .symbol .dot, .ident column])

/--
The condition that the primary key of a row is among those selected.
-/
def keyCondition (q : Query) (id : ScopeId) (table : Table) (key : List String) :
    Compile Fragment := do
  let a ← q.graph.aliasOf id table .root
  let where_ : List Token := [.space, .keyword .where_, .space]
  match key with
  | [column] =>
    let q := q.modifySelect id fun s =>
      { s with items := [{ expr := .column a column }], orderBy := [], distinct := true }
    let inner ← q.renderUnlocked id
    return .ofTokens (where_ ++ [.ident column, .space, .keyword .in_, .space])
      ++ (Fragment.ofRendered inner).parens
  | _ =>
    let comparisons ← key.mapM (keyComparison q.profile a table)
    let correlation := " AND ".intercalate comparisons
    let q := q.modifySelect id fun s =>
      { s with
        items := [{ expr := .literal (.int 1) }]
        orderBy := []
        distinct := false
        autoDistinct := false
        conditions := s.conditions ++ [.raw s!"({correlation})"] }
    let inner ← q.renderUnlocked id
    return .ofTokens (where_ ++ [.keyword .exists_, .space]) ++ (Fragment.ofRendered inner).parens

def nestedBulk? (q : Query) (action : BulkAction) (id : ScopeId) (table : Table) (tables : Nat) :
    Compile (Option Rendered) := do
  let p := q.profile
  let head ← q.bulkHead action table
  let key := table.primaryKeyColumns
  if tables = 1 ∧ ¬ q.hasConditions id then
    return some (← head.serialize p)
  if p.supports .subselect && p.supports .correlatedSubselect && !key.isEmpty then
    return some (← (head ++ (← q.keyCondition id table key)).serialize p)
  else
    return none

/--
The statement that deletes or updates the rows of `table` that a select gives. There is none if the
dialect cannot express it.
-/
def bulk? (q : Query) (action : BulkAction) (id : ScopeId) (table : Table) :
    Compile (Option Rendered) := do
  let p := q.profile
  let tables ← q.tableCount id
  if tables = 1 && p.supports .subselect && p.requirements.allowsAliasInBulkClause then
    return some (← q.aliasedBulk action id table)
  else
    q.nestedBulk? action id table tables

end Query

end SqlDialect
