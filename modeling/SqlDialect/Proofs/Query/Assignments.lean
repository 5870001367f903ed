import SqlDialect.Proofs.Query.BulkRange

/-!
This module contains the values that an update gives to columns. If the table that is changed does
not keep its alias, the values are written without aliases. All their columns are then read as those
of this table, also the columns that were meant to be those of another one.
-/

namespace SqlDialect

/-! ## Expressions without aliases -/

namespace Expr

mutual

def readFrom (target : Alias) : Expr → Expr
  | .column _ name => .column target name
  | .binary op a b => .binary op (a.readFrom target) (b.readFrom target)
  | .unary op a => .unary op (a.readFrom target)
  | .isNull a negated => .isNull (a.readFrom target) negated
  | .like a b escape negated => .like (a.readFrom target) (b.readFrom target) escape negated
  | .inList a vs negated => .inList (a.readFrom target) (allReadFrom target vs) negated
  | .inSelect a scope negated => .inSelect (a.readFrom target) scope negated
  | .cast a typeName => .cast (a.readFrom target) typeName
  | .textFunction f a => .textFunction f (a.readFrom target)
  | .trim a b side => .trim (a.readFrom target) (b.readFrom target) side
  | .concat a b => .concat (a.readFrom target) (b.readFrom target)
  | .suffix a b => .suffix (a.readFrom target) (b.readFrom target)
  | .substring a b c => .substring (a.readFrom target) (b.readFrom target) (c.readFrom target)
  | .indexOf a b => .indexOf (a.readFrom target) (b.readFrom target)
  | .indexOfFrom a b c => .indexOfFrom (a.readFrom target) (b.readFrom target) (c.readFrom target)
  | .aggregate f a distinct => .aggregate f (a.readFrom target) distinct
  | .literal value => .literal value
  | .param name => .param name
  | .existsIn scope negated => .existsIn scope negated
  | .clock f => .clock f
  | .aggregateRows f distinct => .aggregateRows f distinct
  | .raw sql => .raw sql

def allReadFrom (target : Alias) : List Expr → List Expr
  | [] => []
  | e :: es => e.readFrom target :: allReadFrom target es

end

variable {target : Alias} {ctx : RenderContext}

theorem precedence_readFrom (e : Expr) : (e.readFrom target).precedence = e.precedence := by
  cases e with
  | unary op a => cases op <;> rfl
  | _ => rfl

mutual

theorem fragment_readFrom (hctx : ctx.qualify = false)
    : ∀ e : Expr, (e.readFrom target).fragment ctx = e.fragment ctx := by
  intro e
  cases e with
  | column a name => simp [readFrom, fragment, hctx]
  | literal | param | existsIn | clock | aggregateRows | raw => rfl
  | unary _ a | isNull a _ | inSelect a _ _ | cast a _ | textFunction _ a | aggregate _ a _ =>
    simp only [readFrom, fragment, fragment_readFrom hctx a, precedence_readFrom]
  | binary _ a b | like a b _ _ | trim a b _ | concat a b | suffix a b | indexOf a b =>
    simp only [readFrom, fragment, fragment_readFrom hctx a, fragment_readFrom hctx b,
      precedence_readFrom]
  | inList a vs =>
    simp only [readFrom, fragment, fragment_readFrom hctx a, fragments_readFrom hctx vs]
  | substring a b c | indexOfFrom a b c =>
    simp only [readFrom, fragment, fragment_readFrom hctx a, fragment_readFrom hctx b,
      fragment_readFrom hctx c]

theorem fragments_readFrom (hctx : ctx.qualify = false)
    : ∀ es : List Expr, fragments ctx (allReadFrom target es) = fragments ctx es := by
  intro es
  cases es with
  | nil => rfl
  | cons e es =>
    simp only [allReadFrom, fragments, fragment_readFrom hctx e, fragments_readFrom hctx es]

end

mutual

theorem columnAliases_readFrom
    : ∀ e : Expr, (e.readFrom target).columnAliases = e.columnAliases.map fun _ => target := by
  intro e
  cases e with
  | column | literal | param | existsIn | clock | aggregateRows | raw => rfl
  | unary _ a | isNull a _ | inSelect a _ _ | cast a _ | textFunction _ a | aggregate _ a _ =>
    simp only [readFrom, columnAliases, columnAliases_readFrom a]
  | binary _ a b | like a b _ _ | trim a b _ | concat a b | suffix a b | indexOf a b =>
    simp only [readFrom, columnAliases, columnAliases_readFrom a, columnAliases_readFrom b,
      List.map_append]
  | inList a vs =>
    simp only [readFrom, columnAliases, columnAliases_readFrom a, allColumnAliases_readFrom vs,
      List.map_append]
  | substring a b c | indexOfFrom a b c =>
    simp only [readFrom, columnAliases, columnAliases_readFrom a, columnAliases_readFrom b,
      columnAliases_readFrom c, List.map_append]

theorem allColumnAliases_readFrom
    : ∀ es : List Expr,
        allColumnAliases (allReadFrom target es) = (allColumnAliases es).map fun _ => target := by
  intro es
  cases es with
  | nil => rfl
  | cons e es =>
    simp only [allReadFrom, allColumnAliases, columnAliases_readFrom e,
      allColumnAliases_readFrom es, List.map_append]

end

mutual

theorem readFrom_eq_self_iff
    : ∀ e : Expr, e.readFrom target = e ↔ ∀ a ∈ e.columnAliases, a = target := by
  intro e
  cases e with
  | column a name => simp [readFrom, columnAliases, eq_comm]
  | literal | param | existsIn | clock | aggregateRows | raw => simp [readFrom, columnAliases]
  | unary _ a | isNull a _ | inSelect a _ _ | cast a _ | textFunction _ a | aggregate _ a _ =>
    simp only [readFrom, columnAliases, ← readFrom_eq_self_iff a]
    simp
  | binary _ a b | like a b _ _ | trim a b _ | concat a b | suffix a b | indexOf a b =>
    simp only [readFrom, columnAliases, List.forall_mem_append, ← readFrom_eq_self_iff a,
      ← readFrom_eq_self_iff b]
    simp
  | inList a vs =>
    simp only [readFrom, columnAliases, List.forall_mem_append, ← readFrom_eq_self_iff a,
      ← allReadFrom_eq_self_iff vs]
    simp
  | substring a b c | indexOfFrom a b c =>
    simp only [readFrom, columnAliases, List.forall_mem_append, ← readFrom_eq_self_iff a,
      ← readFrom_eq_self_iff b, ← readFrom_eq_self_iff c]
    simp [and_assoc]

theorem allReadFrom_eq_self_iff
    : ∀ es : List Expr, allReadFrom target es = es ↔ ∀ a ∈ allColumnAliases es, a = target := by
  intro es
  cases es with
  | nil => simp [allReadFrom, allColumnAliases]
  | cons e es =>
    simp only [allReadFrom, allColumnAliases, List.forall_mem_append, ← readFrom_eq_self_iff e,
      ← allReadFrom_eq_self_iff es]
    simp

end

theorem sql_readFrom (hctx : ctx.qualify = false) (e : Expr)
    : (e.readFrom target).sql ctx = e.sql ctx := by
  unfold sql
  rw [fragment_readFrom hctx]

theorem eq_of_mem_aliases_readFrom {e : Expr} {a : Alias} (h : a ∈ (e.readFrom target).aliases)
    : a = target := by
  rw [aliases, List.mem_eraseDups, columnAliases_readFrom] at h
  obtain ⟨_, -, rfl⟩ := List.mem_map.mp h
  rfl

theorem readFrom_eq_self_iff_aliases (e : Expr)
    : e.readFrom target = e ↔ ∀ a ∈ e.aliases, a = target := by
  simp only [readFrom_eq_self_iff, aliases, List.mem_eraseDups]

end Expr

/-! ## Statements without an alias -/

namespace BulkAction

def readFrom (target : Alias) (assignments : List (String × Expr)) : List (String × Expr) :=
  assignments.map fun x => (x.1, x.2.readFrom target)

theorem readFrom_eq_self_iff {target : Alias} {assignments : List (String × Expr)}
    : readFrom target assignments = assignments
        ↔
      ∀ x ∈ assignments, ∀ a ∈ x.2.aliases, a = target := by
  have hmap : readFrom target assignments = assignments
      ↔ assignments.map (fun x => (x.1, x.2.readFrom target)) = assignments.map id := by
    rw [List.map_id]
    rfl
  rw [hmap, List.map_inj_left]
  refine forall₂_congr fun x _ => ?_
  rw [← Expr.readFrom_eq_self_iff_aliases]
  simp [Prod.ext_iff]

def assignment (x : String × Fragment) : Fragment :=
  .ofTokens [.ident x.1, .space, .symbol .eq, .space] ++ x.2

theorem render_assignment (p : Profile) (x : String × Fragment)
    : (assignment x).render p
        =
      ⟨p.quoteIdentifier x.1 ++ " = " ++ (x.2.render p).sql, (x.2.render p).params⟩ := by
  have htarget : Token.writeAll p [.ident x.1, .space, .symbol .eq, .space]
      = p.quoteIdentifier x.1 ++ " = " := by
    simp [Token.writeAll, Token.write, Symbol.text]
  rw [assignment, Fragment.render_append, ← htarget]
  rfl

theorem setClause_update (assignments : List (String × Expr)) (ctx : RenderContext)
    : (update assignments).setClause ctx none
        =
      (fun parts => .ofTokens [.space, .keyword .set_, .space] ++ .commaSep (parts.map assignment))
        <$> assignments.mapM fun x => (x.1, ·) <$> x.2.fragment { ctx with qualify := false } := by
  have hparts : (fun parts => .ofTokens [.space, .keyword .set_, .space] ++ .commaSep parts) <$>
        assignments.mapM (fun x : String × Expr =>
          assignment <$> (x.1, ·) <$> x.2.fragment { ctx with qualify := false })
      = (update assignments).setClause ctx none := by
    simp only [setClause, map_eq_pure_bind, bind_assoc, pure_bind]
    rfl
  rw [← hparts, Compile.mapM_map, Functor.map_map]

end BulkAction

theorem Rendered.append_empty (r : Rendered) : r ++ ⟨"", []⟩ = r := by
  cases r
  change Rendered.mk _ _ = _
  simp

namespace Query

def unqualified (q : Query) : RenderContext := { q.context with qualify := false }

def deleteHead (p : Profile) (table : Table) : Rendered :=
  ⟨"DELETE FROM " ++ p.quoteIdentifier table.fullName, []⟩

def updateHead (p : Profile) (table : Table) (values : List (String × Rendered)) : Rendered :=
  let set := values.map fun x => p.quoteIdentifier x.1 ++ " = " ++ x.2.sql
  ⟨"UPDATE " ++ p.quoteIdentifier table.fullName ++ " SET " ++ ", ".intercalate set,
    values.flatMap (·.2.params)⟩

theorem render_bulkHead_delete (q : Query) (table : Table)
    : Fragment.render q.profile <$> q.bulkHead .delete table
        =
      .ok (deleteHead q.profile table) := by
  have hhead : Token.writeAll q.profile
        [.keyword .delete, .space, .keyword .from_, .space, .ident table.fullName]
      = "DELETE FROM " ++ q.profile.quoteIdentifier table.fullName := by
    simp [Token.writeAll, Token.write, Keyword.text, ← String.append_assoc]
  rw [deleteHead, ← hhead]
  rfl

theorem render_bulkHead_update (q : Query) (assignments : List (String × Expr)) (table : Table)
    : Fragment.render q.profile <$> q.bulkHead (.update assignments) table
        =
      updateHead q.profile table <$>
        assignments.mapM fun x => (x.1, ·) <$> x.2.sql q.unqualified := by
  have hvalues : (assignments.mapM fun x => (x.1, ·) <$> x.2.sql q.unqualified)
      = List.map (Prod.map id (Fragment.render q.profile)) <$>
          assignments.mapM fun x => (x.1, ·) <$> x.2.fragment q.unqualified := by
    rw [← Compile.mapM_map]
    simp only [Expr.sql_eq, map_eq_pure_bind, bind_assoc, pure_bind]
    rfl
  have hhead : Token.writeAll q.profile [.keyword .update, .space, .ident table.fullName]
      = "UPDATE " ++ q.profile.quoteIdentifier table.fullName := by
    simp [Token.writeAll, Token.write, Keyword.text, ← String.append_assoc]
  simp only [bulkHead, BulkAction.setClause_update, bind_pure_comp]
  rw [hvalues]
  simp only [Functor.map_map]
  refine congrArg (· <$> _) (funext fun parts => ?_)
  simp only [Fragment.render_append, Fragment.commaSep, Fragment.render_separated, List.map_map,
    Function.comp_def, BulkAction.render_assignment, updateHead, ← hhead, String.append_assoc]
  simp only [List.flatMap_map]
  rfl

def bulkRest? (q : Query) (id : ScopeId) (table : Table) (tables : Nat) :
    Compile (Option Rendered) :=
  if tables = 1 ∧ ¬ q.hasConditions id then
    .ok (some ⟨"", []⟩)
  else if q.profile.supports .subselect && q.profile.supports .correlatedSubselect
      && !table.primaryKeyColumns.isEmpty then do
    return some ((← q.keyCondition id table table.primaryKeyColumns).render q.profile)
  else
    .ok none

theorem nestedBulk?_eq (q : Query) (action : BulkAction) (id : ScopeId) (table : Table)
    (tables : Nat)
    : q.nestedBulk? action id table tables
        =
      (do
        let head ← Fragment.render q.profile <$> q.bulkHead action table
        Option.map (head ++ ·) <$> q.bulkRest? id table tables) := by
  rw [nestedBulk?_eq_render, bulkRest?, bind_map_left]
  refine congrArg (q.bulkHead action table >>= ·) (funext fun head => ?_)
  by_cases hplain : tables = 1 ∧ ¬ q.hasConditions id
  · simp only [if_pos hplain, Compile.pure_eq_ok]
    exact congrArg (fun r => Except.ok (some r)) (Rendered.append_empty _).symm
  · simp only [if_neg hplain]
    split
    · simp only [Fragment.render_append, map_eq_pure_bind, bind_assoc, pure_bind, Option.map_some]
    · rfl

theorem bulk?_of_not_keepsAlias {q : Query} {id : ScopeId} {scope : Scope}
    (hscope : q.graph.scope? id = some scope) (hbare : q.keepsAlias scope.entries.length = false)
    (action : BulkAction) (table : Table)
    : q.bulk? action id table
        =
      (do
        let head ← Fragment.render q.profile <$> q.bulkHead action table
        Option.map (head ++ ·) <$> q.bulkRest? id table scope.entries.length) := by
  rw [bulk?_eq hscope, hbare, if_neg Bool.false_ne_true, nestedBulk?_eq]

theorem mapM_sql_readFrom (q : Query) (target : Alias) (assignments : List (String × Expr))
    : ((BulkAction.readFrom target assignments).mapM fun x => (x.1, ·) <$> x.2.sql q.unqualified)
        =
      assignments.mapM fun x => (x.1, ·) <$> x.2.sql q.unqualified := by
  have hsql : ∀ e : Expr, (e.readFrom target).sql q.unqualified = e.sql q.unqualified :=
    Expr.sql_readFrom rfl
  rw [BulkAction.readFrom, List.mapM_map]
  simp only [Function.comp_def, hsql]

/--
If the table keeps no alias, an update and a deletion of the same rows differ in their heads only.
The update is the one whose values read all their columns from one table, whatever tables they were
to be read from, so there is a statement even if a value has columns of another table. It gives the
values that were asked for exactly if these have no such columns.
-/
theorem bulk?_update_readFrom (q : Query) (id : ScopeId) (scope : Scope) (table : Table)
    (hscope : q.graph.scope? id = some scope) (hbare : q.keepsAlias scope.entries.length = false)
    : (∃ rest : Compile (Option Rendered),
        q.bulk? .delete id table = Option.map (deleteHead q.profile table ++ ·) <$> rest
          ∧ ∀ assignments : List (String × Expr),
              q.bulk? (.update assignments) id table
                =
              (do
                let values ← assignments.mapM fun x => (x.1, ·) <$> x.2.sql q.unqualified
                Option.map (updateHead q.profile table values ++ ·) <$> rest))
        ∧ ∀ (target : Alias) (assignments : List (String × Expr)),
            let read := BulkAction.readFrom target assignments
            q.bulk? (.update assignments) id table = q.bulk? (.update read) id table
              ∧ (∀ x ∈ read, ∀ a ∈ x.2.aliases, a = target)
              ∧ (read = assignments ↔ ∀ x ∈ assignments, ∀ a ∈ x.2.aliases, a = target) := by
  have hupdate : ∀ assignments : List (String × Expr),
      q.bulk? (.update assignments) id table
        = (do
            let values ← assignments.mapM fun x => (x.1, ·) <$> x.2.sql q.unqualified
            Option.map (updateHead q.profile table values ++ ·) <$>
              q.bulkRest? id table scope.entries.length) := by
    intro assignments
    rw [bulk?_of_not_keepsAlias hscope hbare, render_bulkHead_update, bind_map_left]
  refine ⟨⟨q.bulkRest? id table scope.entries.length, ?_, hupdate⟩, ?_⟩
  · rw [bulk?_of_not_keepsAlias hscope hbare, render_bulkHead_delete, Compile.ok_bind]
  · intro target assignments read
    refine ⟨?_, ?_, BulkAction.readFrom_eq_self_iff⟩
    · rw [hupdate, hupdate, mapM_sql_readFrom]
    · intro x hx a ha
      obtain ⟨y, -, rfl⟩ := List.mem_map.mp hx
      exact Expr.eq_of_mem_aliases_readFrom ha

-- The two tables have a column of the same name, and the value that reads one reads the other.
theorem bulk?_update_readFrom_joined
    : let orders : Table := { name := "ORDERS", primaryKey := some { columns := ["id"] } }
      let key : ForeignKey :=
        { columns := ["cust_id"], referencedTable := "CUSTOMERS", primaryKeyColumns := ["id"] }
      let rel : Relation :=
        { name := "customer", source := orders, target := { name := "CUSTOMERS" },
          foreignKey := key }
      let build : Compile (Alias × Alias × Query) := do
        let (o, q) ← (Query.new Vendor.generic.profile).fromTable .root orders
        let (c, q) ← q.join .root .root rel
        return (o, c.ref, q)
      ∃ o c q scope, build = .ok (o, c, q) ∧ q.graph.scope? .root = some scope
        ∧ q.keepsAlias scope.entries.length = false ∧ c ≠ o
        ∧ q.bulk? (.update [("cust_id", .column c "id")]) .root orders
            = q.bulk? (.update [("cust_id", .column o "id")]) .root orders := by
  intro orders key rel build
  obtain ⟨o, c, q, scope, hbuild, hscope, hbare, hne⟩ : ∃ o c q scope, build = .ok (o, c, q)
      ∧ q.graph.scope? .root = some scope ∧ q.keepsAlias scope.entries.length = false ∧ c ≠ o :=
    ⟨_, _, _, _, rfl, rfl, rfl, by decide⟩
  have hread := (bulk?_update_readFrom q .root scope orders hscope hbare).2 o
    [("cust_id", .column c "id")]
  exact ⟨o, c, q, scope, hbuild, hscope, hbare, hne, hread.1⟩

-- The orders are to be given the keys of their customers and are given their own.
theorem bulk?_update_readFrom_retargeted
    : let orders : Table := { name := "ORDERS", primaryKey := some { columns := ["id"] } }
      let key : ForeignKey :=
        { columns := ["cust_id"], referencedTable := "CUSTOMERS", primaryKeyColumns := ["id"] }
      let rel : Relation :=
        { name := "customer", source := orders, target := { name := "CUSTOMERS" },
          foreignKey := key }
      let update : Compile (Alias × Alias × Option Rendered) := do
        let (_, q) ← (Query.new Vendor.generic.profile).fromTable .root orders
        let (c, q) ← q.join .root .root rel
        return (← q.graph.aliasOf .root orders .root, c.ref,
          ← q.bulk? (.update [("cust_id", .column c.ref "id")]) .root orders)
      update = .ok (⟨0⟩, ⟨1⟩, some ⟨"UPDATE ORDERS SET cust_id = id WHERE id IN (SELECT DISTINCT "
        ++ "t0.id FROM ORDERS t0 INNER JOIN CUSTOMERS t1 ON t0.cust_id = t1.id)", []⟩) := by
  intro orders key rel update
  decide +kernel

end Query

end SqlDialect
