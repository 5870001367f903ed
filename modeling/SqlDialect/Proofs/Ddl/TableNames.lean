import SqlDialect.Ddl.Table
import SqlDialect.Profile.Default
import SqlDialect.Proofs.Join.Ownership
import SqlDialect.Proofs.Query.Isolation

/-!
This module contains the names of tables in statements. Statements that define tables write each
part of a name as an identifier of its own. FROM clauses and statements that change rows write the
whole name as one identifier. The two are the same unless there is a schema and identifiers are
delimited.
-/

namespace SqlDialect

open Text (Occurs)

/-! ## The two texts -/

-- Two names that are quoted apart have two delimiters more than if they are quoted together.
theorem Text.length_quote_append {closing : Char} (h : closing ≠ '.') (opening : Char)
    (schema name : String)
    : (quote opening closing (schema ++ "." ++ name)).length + 2
        =
      (quote opening closing schema ++ "." ++ quote opening closing name).length := by
  have hdot : double closing ".".toList = ".".toList := double_eq_self (by simpa using h)
  simp only [← String.length_toList, String.toList_append, toList_quote, double_append, hdot,
    List.length_append, List.length_cons, List.length_nil]
  omega

namespace Table

variable {t : Table} {p : Profile}

/--
The name of a table where its rows are read or changed.
-/
def referenceText (t : Table) (p : Profile) : String := p.quoteIdentifier t.fullName

/--
The name of a table where it is created, altered or dropped.
-/
def definitionText (t : Table) (p : Profile) : String := Token.writeAll p t.objectName.tokens

theorem definitionText_of_schema_eq_none (h : t.schema = none)
    : t.definitionText p = p.quoteIdentifier t.name := by
  simp [definitionText, objectName, ObjectName.tokens, Token.qualified, Token.writeAll, Token.write,
    h]

theorem definitionText_of_schema {schema : String} (h : t.schema = some schema)
    : t.definitionText p = p.quoteIdentifier schema ++ "." ++ p.quoteIdentifier t.name := by
  simp [definitionText, objectName, ObjectName.tokens, Token.qualified, Token.writeAll, Token.write,
    Symbol.text, h, String.append_assoc]

theorem referenceText_of_schema {schema : String} (h : t.schema = some schema)
    : t.referenceText p = p.quoteIdentifier (schema ++ "." ++ t.name) := by
  simp [referenceText, fullName, qualifiedName, h, toString]

theorem referenceText_eq_definitionText_iff
    : t.referenceText p = t.definitionText p
        ↔
      t.schema = none ∨ p.naming.delimitIdentifiers = false := by
  cases hschema : t.schema with
  | none =>
    rw [definitionText_of_schema_eq_none hschema, referenceText, fullName, hschema]
    simp [qualifiedName]
  | some schema =>
    rw [definitionText_of_schema hschema, referenceText_of_schema hschema]
    cases hdelimit : p.naming.delimitIdentifiers with
    | false => simp [Profile.quoteIdentifier, hdelimit]
    | true =>
      have hclosing : p.naming.quoteStyle.closing ≠ '.' := by
        cases p.naming.quoteStyle <;> decide
      have hlength :=
        Text.length_quote_append hclosing p.naming.quoteStyle.opening schema t.name
      simp only [Profile.quoteIdentifier, hdelimit, if_true, reduceCtorEq, Bool.true_eq_false,
        or_false, iff_false]
      intro heq
      rw [heq] at hlength
      omega

end Table

/-! ## FROM clauses -/

namespace JoinGraph

variable {g : JoinGraph} {p : Profile} {hint : Option String} {id : ScopeId} {s : Scope}
  {a : Alias} {t : Table}

theorem referenceText_of_table? (h : g.table? a = some t.fullName) (hint : Option String)
    : g.referenceText p hint a = t.referenceText p ++ " " ++ toString a ++ hintText hint :=
  referenceText_eq h hint

theorem occurs_reference {c : PlacedChain} (h : a ∈ c.aliases) (reference : Alias → String)
    (condition : JoinEdge → String) : Occurs (reference a) (c.text p reference condition) := by
  unfold PlacedChain.text
  obtain rfl | h := List.mem_cons.mp h
  · exact (Occurs.refl _).intercalate List.mem_cons_self " "
  · obtain ⟨clause, hclause, rfl⟩ := List.mem_map.mp h
    have hoccurs : Occurs (reference clause.joined) (clause.text p reference condition) := by
      apply Occurs.append_right
      apply Occurs.append_right
      exact (Occurs.refl _).append_left _
    exact hoccurs.intercalate (List.mem_cons_of_mem _ (List.mem_map_of_mem hclause)) " "

theorem WellFormed.nodup_aliases (hg : g.WellFormed) (hs : g.scope? id = some s)
    : s.aliases.Nodup := by
  apply (hg.increasing id s hs).imp
  rintro a _ hlt rfl
  exact Nat.lt_irrefl _ hlt

theorem exists_chains_of_fromClause {clause : FromClause} (hg : g.WellFormed)
    (hs : g.scope? id = some s) (h : g.fromClause id p hint = .ok clause)
    : ∃ chains : List PlacedChain, (chains.flatMap (·.aliases)).Perm s.aliases
        ∧ clause.sql = ", ".intercalate
            (chains.map (·.text p (g.referenceText p hint) (·.conditionText p))) := by
  obtain ⟨correlations, inner, _, hinner, rfl⟩ := fromClause_eq_ok hs h
  have hlisted : ∀ predicate edges, g.listedFrom p hint s.aliases edges predicate = .ok inner →
      ∃ chains : List PlacedChain, (chains.flatMap (·.aliases)).Perm s.aliases
        ∧ inner.sql = ", ".intercalate
            (chains.map (·.text p (g.referenceText p hint) (·.conditionText p))) := by
    intro predicate edges hinner
    rw [listedFrom_eq] at hinner
    obtain ⟨conditions, _, hinner⟩ := Compile.bind_eq_ok_iff.mp hinner
    cases hinner
    refine ⟨s.aliases.map fun a => { start := a }, ?_, ?_⟩
    · simp [List.flatMap_map, PlacedChain.aliases]
    · simp [Function.comp_def, PlacedChain.text]
  generalize s.joinSyntax = joinSyntax at hinner
  cases joinSyntax with
  | sql92 =>
    have hends : ∀ e ∈ s.edges.filter s.isLocal, e.source ∈ s.aliases ∧ e.target ∈ s.aliases :=
      fun e he => ends_mem_of_isLocal (List.mem_filter.mp he).2
    obtain ⟨chains, hchains, rfl⟩ := exists_realizes_of_chainedFrom hinner
    have hnodup :=
      (Traversal.nodup_chains (Traversal.frontier_start (s.edges.filter s.isLocal)) s.aliases).1
    refine ⟨chains, ?_, rfl⟩
    rw [PlacedChain.flatMap_aliases_eq hchains,
      List.perm_ext_iff_of_nodup hnodup (hg.nodup_aliases hs)]
    exact fun a => Traversal.mem_chains_iff hends
  | traditional => exact hlisted _ _ hinner
  | native => exact hlisted _ _ hinner

theorem occurs_fromClause {clause : FromClause} (hg : g.WellFormed) (hs : g.scope? id = some s)
    (ha : a ∈ s.aliases) (h : g.fromClause id p hint = .ok clause)
    : Occurs (g.referenceText p hint a) clause.sql := by
  obtain ⟨chains, hperm, hsql⟩ := exists_chains_of_fromClause hg hs h
  obtain ⟨c, hc, hmem⟩ := List.mem_flatMap.mp (hperm.symm.subset ha)
  rw [hsql]
  exact (occurs_reference hmem (g.referenceText p hint) _).intercalate (List.mem_map_of_mem hc) ", "

theorem sql_of_aliases {clause : FromClause} (hg : g.WellFormed) (hs : g.scope? id = some s)
    (ha : s.aliases = [a]) (h : g.fromClause id p hint = .ok clause)
    : clause.sql = g.referenceText p hint a := by
  obtain ⟨chains, hperm, hsql⟩ := exists_chains_of_fromClause hg hs h
  rw [ha, List.perm_singleton] at hperm
  -- There is one chain, since none is without a table, and it joins no further one.
  obtain ⟨c, rfl, hclauses⟩ : ∃ c, chains = [c] ∧ c.aliases = [a] := by
    cases chains with
    | nil => cases hperm
    | cons c chains =>
      obtain ⟨hstart, hrest⟩ := List.cons.inj hperm
      obtain ⟨hclauses, hchains⟩ := List.append_eq_nil_iff.mp hrest
      cases chains with
      | nil => exact ⟨c, rfl, by rw [PlacedChain.aliases, hstart, hclauses]⟩
      | cons d chains => cases hchains
  obtain ⟨hstart, hjoined⟩ := List.cons.inj hclauses
  rw [hsql, List.map_singleton, String.intercalate_singleton, PlacedChain.text, hstart,
    List.map_eq_nil_iff.mp hjoined, List.map_nil, String.intercalate_singleton]

-- The empty path stands for a table of the scope itself.
theorem mem_entries_of_aliasOf (h : g.aliasOf id t .root = .ok a)
    : ∃ s path, g.scope? id = some s ∧ ⟨path, t.fullName, a⟩ ∈ s.entries := by
  obtain ⟨found, hfound, h⟩ := Compile.bind_eq_ok_iff.mp h
  cases found with
  | none => cases h
  | some b =>
    cases h
    obtain ⟨s, hs, hfound⟩ := aliasOf?_eq_ok_iff.mp hfound
    unfold findAlias? at hfound
    obtain hfound | ⟨_, hfound⟩ := Option.or_eq_some_iff.mp hfound
    · obtain ⟨⟨path, table, b⟩, he, rfl⟩ := Option.map_eq_some_iff.mp hfound
      obtain ⟨rfl, rfl⟩ : path = .root ∧ table = t.fullName := by simpa using List.find?_some he
      exact ⟨s, _, hs, List.mem_of_find?_eq_some he⟩
    · obtain ⟨⟨path, table, b⟩, he, rfl⟩ := Option.map_eq_some_iff.mp hfound
      obtain rfl : table = t.fullName := by simpa using List.find?_some he
      exact ⟨s, path, hs, List.mem_of_find?_eq_some he⟩

end JoinGraph

/-! ## Statements that change rows -/

def Text.Detached (text : String) : Prop := text = "" ∨ ∃ rest, text = " " ++ rest

namespace Text.Detached

variable {t u : String}

theorem empty : Detached "" := .inl rfl

theorem space (rest : String) : Detached (" " ++ rest) := .inr ⟨rest, rfl⟩

theorem append (ht : Detached t) (hu : Detached u) : Detached (t ++ u) := by
  obtain rfl | ⟨rest, rfl⟩ := ht
  · simpa using hu
  · rw [String.append_assoc]
    exact space _

end Text.Detached

open Text (Detached)

namespace BulkAction

def Opens (action : BulkAction) (opening : String) : Prop :=
  match action with
  | .update _ => opening = "UPDATE "
  | .delete => opening = "DELETE FROM " ∨ ∃ a : Alias, opening = "DELETE " ++ toString a ++ " FROM "

/--
A statement that begins with an action and the name of the table it is for.
-/
def Targets (action : BulkAction) (name sql : String) : Prop :=
  ∃ opening rest, action.Opens opening ∧ Detached rest ∧ sql = opening ++ name ++ rest

variable {action : BulkAction} {name sql : String}

theorem Targets.append (h : action.Targets name sql) {rest : String} (hrest : Detached rest)
    : action.Targets name (sql ++ rest) := by
  obtain ⟨opening, before, hopening, hbefore, rfl⟩ := h
  exact ⟨opening, before ++ rest, hopening, hbefore.append hrest, by simp [String.append_assoc]⟩

theorem Targets.of_tokens {p : Profile} {opening named ts : List Token} {rest : String}
    (hopening : action.Opens (Token.writeAll p opening))
    (hnamed : Token.writeAll p named = name ++ rest) (hrest : Detached rest)
    (hts : ts = opening ++ named) : action.Targets name (Token.writeAll p ts) := by
  refine ⟨_, rest, hopening, hrest, ?_⟩
  rw [hts, Token.writeAll_append, hnamed, String.append_assoc]

theorem opens_update (p : Profile) (assignments : List (String × Expr))
    : (update assignments).Opens (Token.writeAll p [.keyword .update, .space]) := by
  simp [Opens, Token.writeAll, Token.write, Keyword.text]

theorem opens_delete (p : Profile)
    : delete.Opens
        (Token.writeAll p [.keyword .delete, .space, .keyword .from_, .space]) := by
  simp [Opens, Token.writeAll, Token.write, Keyword.text]

theorem opens_delete_of_alias (p : Profile) (a : Alias)
    : delete.Opens
        (Token.writeAll p
          [.keyword .delete, .space, .tableAlias a, .space, .keyword .from_, .space]) := by
  refine .inr ⟨a, ?_⟩
  have hdelete : "DELETE " = "DELETE" ++ " " := by simp
  have hfrom : " FROM " = " " ++ ("FROM" ++ " ") := by simp
  simp only [Token.writeAll, Token.write, Keyword.text, List.map_cons, List.map_nil,
    String.join_cons, String.join_nil, String.append_empty, hdelete, hfrom, String.append_assoc]

end BulkAction

namespace Query

theorem extends_afterAll (q : Query) (calls : List QueryCall)
    : q.graph.Extends (q.afterAll calls).graph :=
  afterAll_preserves calls (P := fun q' => q.graph.Extends q'.graph)
    (fun hstep h => h.trans hstep.extends) (.refl q.graph)

variable {q : Query} {action : BulkAction} {id : ScopeId} {t : Table} {p : Profile} {r : Rendered}

theorem sql_ofTokens (ts : List Token)
    : ((Fragment.ofTokens ts).render p).sql = Token.writeAll p ts := rfl

theorem detached_space (ts : List Token) (f : Fragment)
    : Detached ((.ofTokens (.space :: ts) ++ f : Fragment).render p).sql := by
  have hspace : ((Fragment.ofTokens (.space :: ts)).render p).sql = " " ++ Token.writeAll p ts :=
    String.join_cons
  rw [sql_append, hspace, String.append_assoc]
  exact .space _

theorem detached_setClause {ctx : RenderContext} {qualifier : Option Alias} {f : Fragment}
    (h : action.setClause ctx qualifier = .ok f) : Detached (f.render p).sql := by
  cases action with
  | delete =>
    cases h
    exact .empty
  | update assignments =>
    obtain ⟨parts, _, h⟩ := Compile.bind_eq_ok_iff.mp h
    cases h
    exact detached_space _ _

theorem detached_where (x : SelectSource) : Detached (x.whereFragment.render p).sql := by
  unfold SelectSource.whereFragment
  split
  · exact detached_space _ _
  · exact .empty

theorem detached_keyCondition {key : List String} {f : Fragment}
    (h : q.keyCondition id t key = .ok f) : Detached (f.render p).sql := by
  rw [keyCondition_eq] at h
  obtain ⟨a, _, h⟩ := Compile.bind_eq_ok_iff.mp h
  obtain ⟨inner, _, h⟩ := Compile.bind_eq_ok_iff.mp h
  cases h
  unfold keyOpening
  split <;> exact detached_space _ _

-- The table is the only one of the select, so the FROM clause is its name with the alias.
theorem tables_of_source {ctx : RenderContext} {source : SelectSource} {a : Alias}
    (hq : q.graph.WellFormed) (htables : q.tableCount id = .ok 1)
    (ha : q.graph.aliasOf id t .root = .ok a) (h : q.source id ctx none = .ok source)
    : source.tables = t.referenceText q.profile ++ (" " ++ toString a) := by
  obtain ⟨clause, _, hclause, _, hsql, _⟩ := source_eq_ok h
  obtain ⟨s, path, hs, he⟩ := JoinGraph.mem_entries_of_aliasOf ha
  have haliases : s.aliases = [a] := by
    simp only [tableCount, JoinGraph.scope_eq_ok_iff.mpr hs, Compile.ok_bind, Compile.pure_eq_ok,
      Except.ok.injEq] at htables
    obtain ⟨e, hentries⟩ := List.length_eq_one_iff.mp htables
    rw [hentries, List.mem_singleton] at he
    rw [Scope.aliases, hentries, ← he]
    rfl
  rw [hsql, JoinGraph.sql_of_aliases hq hs haliases hclause,
    JoinGraph.referenceText_of_table? (hq.table_eq id s hs _ he)]
  simp [JoinGraph.hintText, String.append_assoc]

theorem targets_aliasedBulk (hq : q.graph.WellFormed) (htables : q.tableCount id = .ok 1)
    (h : q.aliasedBulk action id t = .ok r)
    : action.Targets (t.referenceText q.profile) r.sql := by
  rw [aliasedBulk_eq] at h
  obtain ⟨a, ha, h⟩ := Compile.bind_eq_ok_iff.mp h
  obtain ⟨set, hset, h⟩ := Compile.bind_eq_ok_iff.mp h
  obtain ⟨source, hsource, h⟩ := Compile.bind_eq_ok_iff.mp h
  cases h
  rw [sql_append, sql_append, sql_ofTokens]
  refine .append (.append ?_ (detached_setClause hset)) (detached_where source)
  have hnamed : Token.writeAll q.profile [.raw source.tables]
      = t.referenceText q.profile ++ (" " ++ toString a) := by
    rw [← tables_of_source hq htables ha hsource]
    simp [Token.writeAll, Token.write]
  cases action with
  | update assignments =>
    exact .of_tokens (BulkAction.opens_update _ assignments) hnamed (.space _) rfl
  | delete =>
    dsimp only
    split
    · exact .of_tokens (BulkAction.opens_delete_of_alias _ a) hnamed (.space _) rfl
    · exact .of_tokens (BulkAction.opens_delete _) hnamed (.space _) rfl

theorem targets_bulkHead {f : Fragment} (h : q.bulkHead action t = .ok f)
    : action.Targets (t.referenceText q.profile) (f.render q.profile).sql := by
  obtain ⟨set, hset, h⟩ := Compile.bind_eq_ok_iff.mp h
  cases h
  rw [sql_append, sql_ofTokens]
  refine .append ?_ (detached_setClause hset)
  have hnamed : Token.writeAll q.profile [.ident t.fullName] = t.referenceText q.profile ++ "" := by
    simp [Token.writeAll, Token.write, Table.referenceText]
  cases action with
  | update assignments => exact .of_tokens (BulkAction.opens_update _ assignments) hnamed .empty rfl
  | delete => exact .of_tokens (BulkAction.opens_delete _) hnamed .empty rfl

theorem targets_bulk? (hq : q.graph.WellFormed) (h : q.bulk? action id t = .ok (some r))
    : action.Targets (t.referenceText q.profile) r.sql := by
  obtain ⟨tables, htables, h⟩ := Compile.bind_eq_ok_iff.mp h
  split at h
  · next hsingle =>
    simp only [Bool.and_eq_true, decide_eq_true_eq] at hsingle
    obtain ⟨r', hr, h⟩ := Compile.bind_eq_ok_iff.mp h
    cases h
    exact targets_aliasedBulk hq (hsingle.1.1 ▸ htables) hr
  · rw [nestedBulk?_eq_render] at h
    obtain ⟨head, hhead, h⟩ := Compile.bind_eq_ok_iff.mp h
    have htargets := targets_bulkHead hhead
    split at h
    · cases h
      exact htargets
    · dsimp only at h
      split at h
      · obtain ⟨condition, hcondition, h⟩ := Compile.bind_eq_ok_iff.mp h
        cases h
        rw [sql_append]
        exact htargets.append (detached_keyCondition hcondition)
      · cases h

end Query

/-! ## Statements that define tables -/

namespace DdlStatement

def altered? : DdlStatement → Option ObjectName
  | .addColumn table _ | .dropColumn table _ | .addConstraint table _ | .dropConstraint table _ =>
    some table
  | _ => none

variable {p : Profile} {table : ObjectName}

theorem writeAll_define (p : Profile) (action : Keyword) (table : ObjectName) (ts : List Token)
    : let opening : List Token := [.keyword action, .space, .keyword .table, .space]
      let separator : List Token := [.space]
      Token.writeAll p (opening ++ table.tokens ++ separator ++ ts)
        =
      action.text ++ " TABLE " ++ Token.writeAll p table.tokens ++ " " ++ Token.writeAll p ts := by
  intro opening separator
  have hopening : Token.writeAll p opening = action.text ++ " TABLE " := by
    simp only [opening, Token.writeAll, Token.write, List.map_cons, List.map_nil, String.join_cons]
    rfl
  rw [Token.writeAll_append, Token.writeAll_append, Token.writeAll_append, hopening]
  rfl

theorem text_createTable (p : Profile) (table : ObjectName) (columns : List ColumnDeclaration)
    (constraints : List Constraint)
    : ∃ rest, (createTable table columns constraints).text p
        = "CREATE TABLE " ++ Token.writeAll p table.tokens ++ " " ++ rest :=
  ⟨_, (text_eq _ p).trans (writeAll_define p .create table _)⟩

theorem exists_alterTokens {statement : DdlStatement} (p : Profile)
    (h : statement.altered? = some table)
    : ∃ ts, statement.text p = Token.writeAll p (alterTokens table ++ ts) := by
  have hassoc : ∀ us vs, Token.writeAll p (alterTokens table ++ us ++ vs)
      = Token.writeAll p (alterTokens table ++ (us ++ vs)) := by
    intro us vs
    rw [List.append_assoc]
  rw [text_eq]
  cases statement with
  | addColumn _ column =>
    cases h
    exact ⟨_, hassoc _ column.tokens⟩
  | dropColumn _ column =>
    cases h
    exact ⟨_, rfl⟩
  | addConstraint _ constraint =>
    cases h
    exact ⟨_, hassoc _ (constraint.tokens p)⟩
  | dropConstraint _ name =>
    cases h
    exact ⟨_, rfl⟩
  | _ => cases h

theorem text_of_altered? {statement : DdlStatement} (h : statement.altered? = some table)
    : ∃ rest, statement.text p
        = "ALTER TABLE " ++ Token.writeAll p table.tokens ++ " " ++ rest := by
  obtain ⟨ts, hts⟩ := exists_alterTokens p h
  exact ⟨_, hts.trans (writeAll_define p .alter table ts)⟩

end DdlStatement

namespace Table

variable {t : Table} {p : Profile}

inductive Alters (t : Table) (p : Profile) : List DdlStatement → Prop where
  | addColumn {c : Column} {statements : List DdlStatement} (h : t.addColumn p c = .ok statements) :
      Alters t p statements
  | dropColumn {column : String} {statements : List DdlStatement}
      (h : t.dropColumn p column = .ok statements) : Alters t p statements
  | addPrimaryKey : Alters t p (t.addPrimaryKey p)
  | addForeignKey {fk : ForeignKey} {statements : List DdlStatement}
      (h : t.addForeignKey p fk = .ok statements) : Alters t p statements
  | addForeignKeys {statements : List DdlStatement} (h : t.addForeignKeys p = .ok statements) :
      Alters t p statements
  | addUnique {u : Unique} {statements : List DdlStatement}
      (h : t.addUnique p u = .ok statements) : Alters t p statements
  | dropConstraint (name : String) : Alters t p (t.dropConstraint name)

theorem altered?_of_addForeignKey {fk : ForeignKey} {statements : List DdlStatement}
    (h : t.addForeignKey p fk = .ok statements)
    : ∀ statement ∈ statements, statement.altered? = some t.objectName := by
  obtain ⟨constraint?, _, h⟩ := Compile.bind_eq_ok_iff.mp h
  cases h
  simp [DdlStatement.altered?]

theorem Alters.altered? {statements : List DdlStatement} (h : t.Alters p statements)
    : ∀ statement ∈ statements, statement.altered? = some t.objectName := by
  cases h with
  | addColumn h =>
    obtain ⟨_, _, h⟩ := Compile.bind_eq_ok_iff.mp h
    obtain ⟨declaration, _, h⟩ := Compile.bind_eq_ok_iff.mp h
    cases h
    simp [DdlStatement.altered?]
  | dropColumn h =>
    obtain ⟨_, _, h⟩ := Compile.bind_eq_ok_iff.mp h
    cases h
    simp [DdlStatement.altered?]
  | addPrimaryKey => simp [Table.addPrimaryKey, DdlStatement.altered?]
  | addForeignKey h => exact altered?_of_addForeignKey h
  | addForeignKeys h =>
    obtain ⟨lists, hlists, h⟩ := Compile.bind_eq_ok_iff.mp h
    cases h
    intro statement hstatement
    obtain ⟨list, hlist, hstatement⟩ := List.mem_flatten.mp hstatement
    obtain ⟨fk, _, hfk⟩ :=
      Compile.exists_of_mem_forall₂ (Compile.mapM_eq_ok_iff.mp hlists) list hlist
    exact altered?_of_addForeignKey hfk statement hstatement
  | addUnique h =>
    obtain ⟨_, _, h⟩ := Compile.bind_eq_ok_iff.mp h
    split at h
    · obtain ⟨_, _, h⟩ := Compile.bind_eq_ok_iff.mp h
      obtain ⟨constraint, _, h⟩ := Compile.bind_eq_ok_iff.mp h
      cases h
      simp [DdlStatement.altered?]
    · obtain ⟨constraint, _, h⟩ := Compile.bind_eq_ok_iff.mp h
      cases h
      simp [DdlStatement.altered?]
  | dropConstraint name => simp [Table.dropConstraint, DdlStatement.altered?]

theorem text_of_create {statements : List DdlStatement} (h : t.create p = .ok statements)
    : ∃ statement rest tail, statements = statement :: rest
        ∧ statement.text p = "CREATE TABLE " ++ t.definitionText p ++ " " ++ tail := by
  obtain ⟨_, _, h⟩ := Compile.bind_eq_ok_iff.mp h
  obtain ⟨uniques, _, h⟩ := Compile.bind_eq_ok_iff.mp h
  obtain ⟨columns, _, h⟩ := Compile.bind_eq_ok_iff.mp h
  obtain ⟨rest, _, h⟩ := Compile.bind_eq_ok_iff.mp h
  cases h
  obtain ⟨tail, htail⟩ := DdlStatement.text_createTable p t.objectName columns
    ((t.primaryKeyConstraint? p).toList ++ uniques)
  exact ⟨_, rest, tail, rfl, htail⟩

/--
A table is named in FROM clauses, and where its rows are deleted or updated, by its full name as one
identifier. Where it is created, altered or dropped, each part of its name is an identifier. The two
are the same text for tables without a schema and in dialects that do not delimit identifiers, and
differ for all others.
-/
theorem names_of_run (t : Table) (p : Profile) (calls : List QueryCall)
    : let q := (Query.new p).afterAll calls
      (∀ id path a q', q.aliasAt id t path = .ok (a, q') → ∀ later hint,
          (q'.afterAll later).graph.tableReference p hint a
            = .ok (t.referenceText p ++ " " ++ toString a ++ JoinGraph.hintText hint))
      ∧ (∀ id s e, q.graph.scope? id = some s → e ∈ s.entries → e.table = t.fullName →
          ∀ hint clause, q.graph.fromClause id p hint = .ok clause →
            Occurs (t.referenceText p ++ " " ++ toString e.ref ++ JoinGraph.hintText hint)
              clause.sql)
      ∧ (∀ action id r, q.bulk? action id t = .ok (some r) →
          action.Targets (t.referenceText p) r.sql)
      ∧ (∀ statements, t.create p = .ok statements →
          ∃ statement rest tail, statements = statement :: rest
            ∧ statement.text p = "CREATE TABLE " ++ t.definitionText p ++ " " ++ tail)
      ∧ t.drop.map (·.text p) = [Template.fill p.clauses.dropTable [t.definitionText p]]
      ∧ (∀ statements, t.Alters p statements → ∀ statement ∈ statements,
          ∃ tail, statement.text p = "ALTER TABLE " ++ t.definitionText p ++ " " ++ tail)
      ∧ (t.referenceText p = t.definitionText p
          ↔ t.schema = none ∨ p.naming.delimitIdentifiers = false) := by
  intro q
  have hprofile : q.profile = p := Query.profile_afterAll (Query.new p) calls
  have hq : q.graph.WellFormed := by
    obtain ⟨joins, hjoins⟩ := Query.exists_joins_afterAll p calls
    rw [hjoins]
    exact (JoinGraph.WellFormed.new p.joinSyntax).afterAll joins
  have hdrop : t.drop.map (·.text p) = [Template.fill p.clauses.dropTable [t.definitionText p]] :=
    congrArg (fun text => [text]) (DdlStatement.text_eq (.dropTable t.objectName) p)
  refine ⟨?_, ?_, ?_, fun _ => text_of_create, hdrop, ?_, referenceText_eq_definitionText_iff⟩
  · intro id path a q' h later hint
    obtain ⟨⟨b, g⟩, hrequire, h⟩ := Compile.bind_eq_ok_iff.mp h
    cases h
    obtain ⟨path', ⟨home, s, hs, he⟩, _⟩ := JoinGraph.hasEntry_of_requireAlias hrequire
    have htable : g.table? a = some t.fullName :=
      (hq.of_requireAlias hrequire).table_eq home s hs _ he
    have hext : g.Extends (Query.afterAll { q with graph := g } later).graph :=
      Query.extends_afterAll { q with graph := g } later
    rw [JoinGraph.tableReference_eq_ok,
      JoinGraph.referenceText_of_table? (hext.table?_eq_some htable)]
  · intro id s e hs he htable hint clause hclause
    have ha : e.ref ∈ s.aliases := List.mem_map_of_mem he
    rw [← JoinGraph.referenceText_of_table? (htable ▸ hq.table_eq id s hs e he)]
    exact JoinGraph.occurs_fromClause hq hs ha hclause
  · intro action id r h
    exact hprofile ▸ Query.targets_bulk? hq h
  · intro statements h statement hstatement
    exact DdlStatement.text_of_altered? (h.altered? statement hstatement)

def delimiting : Profile :=
  let p := Vendor.generic.profile
  { p with naming := { p.naming with delimitIdentifiers := true } }

def inSchema : Table :=
  { name := "T"
    schema := some "S"
    columns := [{ name := "ID", typeCode := .bigInt }]
    primaryKey := some { columns := ["ID"] } }

theorem names_of_run_delimited
    : let q := (Query.new delimiting).afterAll [.fromTable .root inSchema]
      let clause : FromClause := ⟨"\"S.T\" t0", []⟩
      let r : Rendered := ⟨"DELETE FROM \"S.T\" t0", []⟩
      q.graph.fromClause .root delimiting none = .ok clause
        ∧ Occurs (inSchema.referenceText delimiting ++ " " ++ toString (⟨0⟩ : Alias) ++ "")
            clause.sql
        ∧ q.bulk? .delete .root inSchema = .ok (some r)
        ∧ BulkAction.delete.Targets (inSchema.referenceText delimiting) r.sql
        ∧ (∃ statements, inSchema.create delimiting = .ok statements
          ∧ ∃ statement rest tail, statements = statement :: rest
            ∧ statement.text delimiting
              = "CREATE TABLE " ++ inSchema.definitionText delimiting ++ " " ++ tail)
        ∧ ∀ statement ∈ inSchema.addPrimaryKey delimiting,
            ∃ tail, statement.text delimiting
              = "ALTER TABLE " ++ inSchema.definitionText delimiting ++ " " ++ tail := by
  intro q clause r
  have hclause : q.graph.fromClause .root delimiting none = .ok clause := by decide +kernel
  have hr : q.bulk? .delete .root inSchema = .ok (some r) := by decide +kernel
  obtain ⟨statements, hstatements⟩ : ∃ statements, inSchema.create delimiting = .ok statements :=
    ⟨_, rfl⟩
  obtain ⟨_, hfrom, hbulk, hcreate, _, halter, _⟩ :=
    names_of_run inSchema delimiting [.fromTable .root inSchema]
  exact ⟨hclause,
    hfrom .root _ ⟨.root, "S.T", ⟨0⟩⟩ rfl (by decide) (by decide) none clause hclause, hr,
    hbulk .delete .root r hr, ⟨statements, hstatements, hcreate statements hstatements⟩,
    halter _ .addPrimaryKey⟩

-- What rows are read and deleted from under one identifier is created and dropped under two.
theorem names_ne_delimited
    : let q := (Query.new delimiting).afterAll
        [.fromTable .root inSchema, .addItem .root { expr := .column ⟨0⟩ "ID" }]
      (q.render .unlocked).toOption.map (·.sql) = some "SELECT t0.\"ID\" FROM \"S.T\" t0"
        ∧ q.bulk? .delete .root inSchema = .ok (some ⟨"DELETE FROM \"S.T\" t0", []⟩)
        ∧ (inSchema.create delimiting).toOption.map (·.map (·.text delimiting))
            = some ["CREATE TABLE \"S\".\"T\" (\"ID\" BIGINT, PRIMARY KEY (\"ID\"))"]
        ∧ inSchema.drop.map (·.text delimiting) = ["DROP TABLE \"S\".\"T\""]
        ∧ inSchema.referenceText delimiting ≠ inSchema.definitionText delimiting := by
  decide +kernel

end Table
end SqlDialect
