import SqlDialect.Profile.Default
import SqlDialect.Proofs.Ddl.NameLengths
import SqlDialect.Proofs.Expr.Faults
import SqlDialect.Proofs.Join.Failure
import SqlDialect.Proofs.Query.BulkRange
import SqlDialect.Proofs.Query.Nesting

/-!
This module contains what is known of the floats in a statement. Writing a float that has no text
would be a panic, and there is none: such floats are refused before. Hence whenever there is a
statement, all floats that had to be written for it have a token. This is said of the expressions of
a select, of the constants of its joins, of all selects that it refers to, and of new values for
columns. The statements that define tables never look at a literal.
-/

namespace SqlDialect

open Compile (Avoids Checks)

/-! ## Literals that can be written -/

def Literal.Serializable (value : Literal) : Prop :=
  ∀ x, value = .float x → ∃ t, Token.ofFloat x = .ok t

def Expr.Serializable (e : Expr) : Prop := ∀ value, .literal value ∈ e.parts → value.Serializable

/--
Every float among the constants of the joins of a select has a token. A cross join has no condition
that they could stand in.
-/
def JoinGraph.Serializable (g : JoinGraph) (id : ScopeId) : Prop :=
  ∀ s, g.scope? id = some s → ∀ e ∈ s.edges, e.kind ≠ .cross →
    ∀ fk, e.foreignKey = some fk →
      ∀ c ∈ fk.constantColumns ++ fk.constantPrimaryKeyColumns, c.2.Serializable

namespace Query

/--
Every float in a select, or in one that it refers to, has a token.
-/
def Serializable (q : Query) (id : ScopeId) : Prop :=
  ∀ t, Relation.ReflTransGen q.Refers id t →
    (∀ s, q.select? t = some s → ∀ e ∈ s.exprs, e.Serializable) ∧ q.graph.Serializable t

def SerializableIn (q : Query) (e : Expr) : Prop :=
  e.Serializable ∧ ∀ t ∈ e.nestedSelects, q.Serializable t

end Query

theorem Compile.Checks.avoids {α : Type} {b : Breakdown} {p : Profile} {x : Compile α}
    {capabilities : List Capability} {names : List NewName} (h : Checks p capabilities names x)
    : x.Avoids b := by
  rintro err rfl hb
  replace h : some err = (p.unsupported? capabilities).or (p.tooLong? names) := h
  obtain h | ⟨_, h⟩ := Option.or_eq_some_iff.mp h.symm
  · obtain ⟨c, _, rfl⟩ := Option.map_eq_some_iff.mp h
    cases hb
  · obtain ⟨n, _, rfl⟩ := Option.map_eq_some_iff.mp h
    cases hb

theorem Token.exists_ofFloat_iff {x : Binary64} : (∃ t, ofFloat x = .ok t) ↔ x.isFinite := by
  by_cases hx : x.isFinite
  · simp [ofFloat, hx]
  · simp [ofFloat, hx]

theorem Token.avoids_panic_iff {x : Binary64} {p : Profile}
    : ((Token.float x).serialize p).Avoids .panic ↔ x.isFinite := by
  constructor
  · intro h
    by_contra hx
    refine h (.nonFiniteLiteral x (some (if x.isNaN then .nan else .infinite))) ?_ rfl
    simp [serialize, ofFloat, hx]
  · intro hx
    rw [serialize_eq_ok (t := .float x) hx]
    exact .ok _

theorem Literal.serializable_iff {value : Literal} : value.Serializable ↔ value.isFinite := by
  unfold Serializable
  simp only [Token.exists_ofFloat_iff]
  cases value <;> simp [isFinite]

theorem RenderStep.exists_run_ofCompile {α : Type} {x : Compile α}
    {subselect : ScopeId → Compile Rendered}
    : (∃ r, (ofCompile x).run subselect = .ok r) ↔ ∃ a, x = .ok a := by
  cases x with
  | ok a => exact ⟨fun _ => ⟨a, rfl⟩, fun _ => ⟨_, rfl⟩⟩
  | error e =>
    constructor
    · rintro ⟨r, hr⟩
      cases hr
    · rintro ⟨a, ha⟩
      cases ha

def RenderStep.Succeed (steps : List RenderStep) (subselect : ScopeId → Compile Rendered) : Prop :=
  ∀ step ∈ steps, ∃ r, step.run subselect = .ok r

namespace Expr

variable {e : Expr} {subselect : ScopeId → Compile Rendered}

theorem serializable_of_steps (h : RenderStep.Succeed e.steps subselect) : e.Serializable := by
  intro value hvalue
  have hstep : .ofCompile value.token ∈ e.steps := by
    rw [steps_eq]
    exact List.mem_filterMap.mpr ⟨_, hvalue, rfl⟩
  rw [Literal.serializable_iff, ← Literal.exists_token_iff]
  exact RenderStep.exists_run_ofCompile.mp (h _ hstep)

end Expr

namespace JoinGraph

theorem serializable_of_fromClause {g : JoinGraph} {id : ScopeId} {p : Profile}
    {hint : Option String} {clause : FromClause} (h : g.fromClause id p hint = .ok clause)
    : g.Serializable id := by
  intro s hs e he hcross fk hfk c hc
  obtain ⟨_, hedges⟩ := (exists_fromClause_iff hs).mp ⟨clause, h⟩
  obtain ⟨hfinite, _⟩ := Scope.exists_condition_iff.mp (hedges e he hcross)
  rw [Literal.serializable_iff]
  by_contra hinfinite
  obtain ⟨x, hx, hinfinite⟩ := Literal.not_isFinite_iff.mp hinfinite
  apply hfinite
  refine ⟨fk, hfk, c.1, x, ?_, hinfinite⟩
  rw [← hx]
  exact hc

end JoinGraph

/-! ## Selects -/

namespace Query

variable {q : Query} {id t : ScopeId} {s : Select} {e : Expr} {depth : Nat} {lock : LockRequest}
  {ctx : RenderContext}

theorem succeed_of_renderScope (h : ∃ r, q.renderScope id lock ctx = .ok r)
    : RenderStep.Succeed (q.steps id lock) ctx.subselect :=
  (q.sequenced_renderScope id lock ctx).exists_ok_iff.mp h

theorem mem_steps_of_emitted (hs : q.select? id = some s) (he : e ∈ s.emitted.exprs)
    {step : RenderStep} (hstep : step ∈ e.steps) : step ∈ q.steps id lock := by
  rw [Select.exprs_emitted] at he
  have hordered : (q.shape id s).ordered = s.isOrdered := rfl
  simp only [steps, hs, List.mem_cons, List.mem_append, List.mem_flatMap, hordered]
  obtain he | he := List.mem_append.mp he
  · obtain ⟨item, hitem, rfl⟩ := List.mem_map.mp he
    exact .inr (.inr (.inr (.inl ⟨item, hitem, hstep⟩)))
  · exact .inr (.inr (.inr (.inr (.inr ⟨e, he, hstep⟩))))

theorem serializable_of_succeed (h : RenderStep.Succeed (q.steps id lock) ctx.subselect)
    : (∀ s, q.emitted.select? id = some s → ∀ e ∈ s.exprs, e.Serializable)
        ∧ q.graph.Serializable id := by
  cases hs : q.select? id with
  | none =>
    obtain ⟨r, hr⟩ := h (.check (.error (.aliasing (.unknownScope id)))) (by simp [steps, hs])
    cases hr
  | some s =>
    constructor
    · intro s' hs' e he
      rw [select?_emitted, hs] at hs'
      cases hs'
      exact Expr.serializable_of_steps fun step hstep => h step (mem_steps_of_emitted hs he hstep)
    · have hfrom := h (.ofCompile (q.graph.fromClause id q.profile (tableHint q.profile id lock)))
        (by simp [steps, hs])
      obtain ⟨clause, hclause⟩ := RenderStep.exists_run_ofCompile.mp hfrom
      exact JoinGraph.serializable_of_fromClause hclause

-- Whatever is referred to has been rendered on the way.
theorem exists_renderScope_of_reaches (hctx : ctx.subselect = q.renderNested depth)
    (h : ∃ r, q.renderScope id lock ctx = .ok r) (ht : Relation.ReflTransGen q.emitted.Refers id t)
    : ∃ lock ctx depth, ctx.subselect = q.renderNested depth
        ∧ ∃ r, q.renderScope t lock ctx = .ok r := by
  induction ht with
  | refl => exact ⟨lock, ctx, depth, hctx, h⟩
  | tail _ hrefers ih =>
    obtain ⟨lock, ctx, depth, hctx, hrender⟩ := ih
    obtain ⟨r, hr⟩ := succeed_of_renderScope hrender _ (select_mem_steps_iff.mpr hrefers)
    rw [RenderStep.run, hctx] at hr
    obtain ⟨depth, hrender⟩ := exists_renderScope_of_renderNested hr
    exact ⟨_, _, depth, rfl, r, hrender⟩

theorem serializable_of_renderScope (hctx : ctx.subselect = q.renderNested depth)
    (h : ∃ r, q.renderScope id lock ctx = .ok r) : q.emitted.Serializable id := by
  intro t ht
  obtain ⟨lock, ctx, depth, _, hrender⟩ := exists_renderScope_of_reaches hctx h ht
  exact serializable_of_succeed (succeed_of_renderScope hrender)

theorem serializableIn_of_steps (h : RenderStep.Succeed e.steps (q.renderNested depth))
    : q.emitted.SerializableIn e := by
  refine ⟨Expr.serializable_of_steps h, fun t ht => ?_⟩
  obtain ⟨r, hr⟩ := h _ (Expr.mem_nestedSelects_iff.mp ht)
  obtain ⟨depth, hrender⟩ := exists_renderScope_of_renderNested hr
  exact serializable_of_renderScope rfl ⟨r, hrender⟩

theorem serializableIn_of_fragment {f : Fragment} (hctx : ctx.subselect = q.renderNested depth)
    (h : e.fragment ctx = .ok f) : q.emitted.SerializableIn e := by
  have hsteps : RenderStep.Succeed e.steps ctx.subselect :=
    (e.sequenced_fragment ctx).exists_ok_iff.mp ⟨f, h⟩
  rw [hctx] at hsteps
  exact serializableIn_of_steps hsteps

theorem Serializable.serializableIn (h : q.Serializable id) (hs : q.select? id = some s)
    (he : e ∈ s.exprs) : q.SerializableIn e := by
  refine ⟨(h id .refl).1 s hs e he, fun t ht => ?_⟩
  intro u hu
  exact h u (.head ⟨s, hs, e, he, ht⟩ hu)

theorem serializable_of_clauses {α : Type} {x : (ScopeId → Compile Rendered) → Compile α}
    {hint : Option String} {es : List Expr}
    (hx : Sequenced (.ofCompile (q.graph.fromClause id q.profile hint) :: es.flatMap (·.steps)) x)
    (h : ∃ a, x (q.renderNested depth) = .ok a)
    : (∀ e ∈ es, q.emitted.SerializableIn e) ∧ q.graph.Serializable id := by
  obtain ⟨hfrom, hsteps⟩ := List.forall_mem_cons.mp (hx.exists_ok_iff.mp h)
  obtain ⟨clause, hclause⟩ := RenderStep.exists_run_ofCompile.mp hfrom
  refine ⟨fun e he => ?_, JoinGraph.serializable_of_fromClause hclause⟩
  exact serializableIn_of_steps fun step hstep =>
    hsteps step (List.mem_flatMap.mpr ⟨e, he, hstep⟩)

theorem avoids_panic_renderNested (q : Query) (depth : Nat) (id : ScopeId)
    : (q.renderNested depth id).Avoids .panic := by
  induction depth generalizing id with
  | zero =>
    unfold renderNested
    exact .ite (.error rfl) (Avoids.error_iff.mpr (by simp [CompileError.breakdown?]))
  | succ depth ih =>
    by_cases hid : id = .root
    · rw [hid, renderNested_root]
      exact .error rfl
    · rw [renderNested_succ hid]
      exact (q.sequenced_renderScope id .unlocked { profile := q.profile }).avoids
        (q.avoids_steps id .unlocked) fun t _ => ih t

theorem avoids_panic_context (q : Query) (id : ScopeId) : (q.context.subselect id).Avoids .panic :=
  q.avoids_panic_renderNested q.selects.length id

theorem serializable_of_render {c : CompiledSelect} (h : q.render lock = .ok c)
    : q.emitted.Serializable .root := by
  obtain ⟨r, hr, _⟩ := Compile.bind_eq_ok_iff.mp h
  exact serializable_of_renderScope rfl ⟨r, hr⟩

/-! ## Counts -/

/--
Every float in the statement that counts the rows of a query has a token. The statement is made of
the items that are counted and of the clauses of the query, or else holds the whole query.
-/
def SerializableCount (q : Query) : Prop :=
  ∀ s, q.select? .root = some s →
    (∀ e ∈ (q.countedItems s).map (·.expr) ++ s.clauseExprs false, q.emitted.SerializableIn e)
      ∧ q.graph.Serializable .root
      ∧ (q.directCount? s = .ok none → q.emitted.Serializable .root)

theorem serializableIn_of_directCount? {count : Fragment}
    (h : q.directCount? s = .ok (some count))
    : ∀ e ∈ (q.countedItems s).map (·.expr), q.emitted.SerializableIn e := by
  unfold countedItems
  split
  · simp
  · next hitems =>
    obtain ⟨hwildcard, hdistinct⟩ : q.profile.requirements.wildcardForCount = false
        ∧ q.isDistinct .root = true := by simpa using hitems
    have hidentifiers : q.identifiers s = (s.items.filter (·.identifier)).map (·.expr) := by
      rw [identifiers, if_pos hdistinct]
    rw [← hidentifiers]
    simp only [directCount?, hwildcard, Bool.false_eq_true, if_false] at h
    split at h
    · cases h
    · generalize q.identifiers s = es at h
      split at h
      · simp
      · obtain ⟨f, hf, _⟩ := Compile.bind_eq_ok_iff.mp h
        obtain ⟨g, hg, _⟩ := Compile.bind_eq_ok_iff.mp hf
        simpa using serializableIn_of_fragment rfl hg
      · cases h
      · obtain ⟨rs, hrs, _⟩ := Compile.bind_eq_ok_iff.mp h
        intro e he
        obtain ⟨r, hr⟩ := Compile.exists_mapM_eq_ok_iff.mp ⟨rs, hrs⟩ e he
        obtain ⟨f, hf, _⟩ := Compile.bind_eq_ok_iff.mp hr
        exact serializableIn_of_fragment rfl hf

theorem serializableCount_of_renderCount {c : CompiledSelect} (h : q.renderCount = .ok c)
    : q.SerializableCount := by
  intro s hs
  simp only [renderCount, select_eq_ok_iff.mpr hs, Compile.ok_bind] at h
  obtain ⟨count, hcount, h⟩ := Compile.bind_eq_ok_iff.mp h
  cases count with
  | some count =>
    obtain ⟨f, hf, _⟩ := Compile.bind_eq_ok_iff.mp h
    obtain ⟨hclauses, hjoins⟩ :=
      serializable_of_clauses (sequenced_body hs q.context none false) ⟨f, hf⟩
    have hitems := serializableIn_of_directCount? hcount
    refine ⟨List.forall_mem_append.mpr ⟨hitems, hclauses⟩, hjoins, fun hnone => ?_⟩
    cases hcount.symm.trans hnone
  | none =>
    obtain ⟨_, _, h⟩ := Compile.bind_eq_ok_iff.mp h
    obtain ⟨r, hr, _⟩ := Compile.bind_eq_ok_iff.mp h
    have hroot : q.emitted.Serializable .root := serializable_of_renderScope rfl ⟨r, hr⟩
    have hs' : q.emitted.select? .root = some s.emitted := by rw [select?_emitted, hs]; rfl
    refine ⟨fun e he => hroot.serializableIn hs' ?_, (hroot .root .refl).2, fun _ => hroot⟩
    -- Whatever is counted is selected, and the clauses are those of the query.
    rw [Select.exprs_emitted]
    have hitems : q.countedItems s ⊆ s.items := by
      unfold countedItems
      split
      · exact List.nil_subset _
      · exact List.filter_sublist.subset
    have hclauses : s.clauseExprs false ⊆ s.clauseExprs s.isOrdered := by
      intro e he
      simp only [Select.clauseExprs, Bool.false_eq_true, if_false, List.append_nil,
        List.mem_append] at he ⊢
      tauto
    obtain he | he := List.mem_append.mp he
    · exact List.mem_append_left _ (List.map_subset _ hitems he)
    · exact List.mem_append_right _ (hclauses he)

/-! ## Changes of all rows -/

/--
Every float in the statement that changes the rows of a select has a token. The rows are told by the
conditions of the select if the table keeps its alias, and by a nested select on the primary key if
it does not, unless all rows of the table are to be changed.
-/
def SerializableBulk (q : Query) (action : BulkAction) (id : ScopeId) (table : Table)
    (statement : Option Rendered) : Prop :=
  (∀ e ∈ action.exprs, q.emitted.SerializableIn e)
    ∧ ∀ tables, q.tableCount id = .ok tables →
      if q.keepsAlias tables then
        (∀ s, q.select? id = some s → ∀ e ∈ s.conditions, q.emitted.SerializableIn e)
          ∧ q.graph.Serializable id
      else
        statement.isSome → ¬ (tables = 1 ∧ ¬ q.hasConditions id) →
          ∃ a, q.graph.aliasOf id table .root = .ok a
            ∧ (q.modifySelect id
                (keySelect q.profile a table table.primaryKeyColumns)).emitted.Serializable id

theorem serializableIn_of_setClause {action : BulkAction} {qualifier : Option Alias} {f : Fragment}
    (h : action.setClause q.context qualifier = .ok f)
    : ∀ e ∈ action.exprs, q.emitted.SerializableIn e := by
  cases action with
  | delete => simp [BulkAction.exprs]
  | update assignments =>
    intro e he
    obtain ⟨⟨column, e⟩, hassignment, rfl⟩ := List.mem_map.mp he
    obtain ⟨parts, hparts, _⟩ := Compile.bind_eq_ok_iff.mp h
    obtain ⟨part, hpart⟩ := Compile.exists_mapM_eq_ok_iff.mp ⟨parts, hparts⟩ _ hassignment
    obtain ⟨g, hg, _⟩ := Compile.bind_eq_ok_iff.mp hpart
    exact serializableIn_of_fragment rfl hg

theorem serializableBulk_of_bulk? {action : BulkAction} {table : Table}
    {statement : Option Rendered} (h : q.bulk? action id table = .ok statement)
    : q.SerializableBulk action id table statement := by
  obtain ⟨tables, htables, h⟩ := Compile.bind_eq_ok_iff.mp h
  unfold SerializableBulk
  simp only [htables, Except.ok.injEq, forall_eq']
  change (if q.keepsAlias tables then _ else _) = _ at h
  split at h
  · next hkeeps =>
    obtain ⟨r, hr, _⟩ := Compile.bind_eq_ok_iff.mp h
    obtain ⟨a, _, hr⟩ := Compile.bind_eq_ok_iff.mp hr
    obtain ⟨set, hset, hr⟩ := Compile.bind_eq_ok_iff.mp hr
    obtain ⟨source, hsource, _⟩ := Compile.bind_eq_ok_iff.mp hr
    obtain ⟨s, hs, _⟩ := Compile.bind_eq_ok_iff.mp hsource
    rw [select_eq_ok_iff] at hs
    obtain ⟨hconditions, hjoins⟩ :=
      serializable_of_clauses (sequenced_source hs q.context none) ⟨source, hsource⟩
    rw [if_pos hkeeps]
    refine ⟨serializableIn_of_setClause hset, fun s' hs' => ?_, hjoins⟩
    cases hs.symm.trans hs'
    exact hconditions
  · next hkeeps =>
    obtain ⟨head, hhead, h⟩ := Compile.bind_eq_ok_iff.mp h
    obtain ⟨set, hset, _⟩ := Compile.bind_eq_ok_iff.mp hhead
    rw [if_neg hkeeps]
    refine ⟨serializableIn_of_setClause hset, fun hsome hall => ?_⟩
    rw [if_neg hall] at h
    split at h
    · obtain ⟨condition, hcondition, _⟩ := Compile.bind_eq_ok_iff.mp h
      rw [keyCondition_eq] at hcondition
      obtain ⟨a, ha, hcondition⟩ := Compile.bind_eq_ok_iff.mp hcondition
      obtain ⟨inner, hinner, _⟩ := Compile.bind_eq_ok_iff.mp hcondition
      exact ⟨a, ha, serializable_of_renderScope rfl ⟨inner, hinner⟩⟩
    · cases h
      cases hsome

end Query

/-! ## Statements that define tables -/

def ForeignKey.withoutConstants (fk : ForeignKey) : ForeignKey :=
  { fk with constantColumns := [], constantPrimaryKeyColumns := [] }

def Table.withoutConstants (t : Table) : Table :=
  { t with foreignKeys := t.foreignKeys.map (·.withoutConstants) }

inductive DdlOperation where
  | createTable (table : Table)
  | dropTable (table : Table)
  | addColumn (table : Table) (column : Column)
  | dropColumn (table : Table) (column : String)
  | addPrimaryKey (table : Table)
  | addForeignKey (table : Table) (fk : ForeignKey)
  | addForeignKeys (table : Table)
  | addUnique (table : Table) (unique : Unique)
  | dropConstraint (table : Table) (name : String)
  | createIndex (table : Table) (index : Index)
  | createIndexes (table : Table)
  | dropIndex (table : Table) (index : Index)
  | createSequence (sequence : Sequence)
  | dropSequence (sequence : Sequence)

namespace DdlOperation

def run (p : Profile) : DdlOperation → Compile (List DdlStatement)
  | .createTable t => t.create p
  | .dropTable t => .ok t.drop
  | .addColumn t c => t.addColumn p c
  | .dropColumn t c => t.dropColumn p c
  | .addPrimaryKey t => .ok (t.addPrimaryKey p)
  | .addForeignKey t fk => t.addForeignKey p fk
  | .addForeignKeys t => t.addForeignKeys p
  | .addUnique t u => t.addUnique p u
  | .dropConstraint t name => .ok (t.dropConstraint name)
  | .createIndex t i => t.createIndex p i
  | .createIndexes t => t.createIndexes p
  | .dropIndex t i => .ok (t.dropIndex i)
  | .createSequence s => s.create p
  | .dropSequence s => .ok s.drop

/--
The operation without the constants of foreign keys, which are the only literals in a schema.
-/
def withoutConstants : DdlOperation → DdlOperation
  | .createTable t => .createTable t.withoutConstants
  | .dropTable t => .dropTable t.withoutConstants
  | .addColumn t c => .addColumn t.withoutConstants c
  | .dropColumn t c => .dropColumn t.withoutConstants c
  | .addPrimaryKey t => .addPrimaryKey t.withoutConstants
  | .addForeignKey t fk => .addForeignKey t.withoutConstants fk.withoutConstants
  | .addForeignKeys t => .addForeignKeys t.withoutConstants
  | .addUnique t u => .addUnique t.withoutConstants u
  | .dropConstraint t name => .dropConstraint t.withoutConstants name
  | .createIndex t i => .createIndex t.withoutConstants i
  | .createIndexes t => .createIndexes t.withoutConstants
  | .dropIndex t i => .dropIndex t.withoutConstants i
  | .createSequence s => .createSequence s
  | .dropSequence s => .dropSequence s

theorem run_withoutConstants (op : DdlOperation) (p : Profile)
    : op.withoutConstants.run p = op.run p := by
  cases op with
  | addForeignKeys t =>
    simp only [withoutConstants, run, Table.addForeignKeys, Table.withoutConstants, List.mapM_map]
    rfl
  | _ => rfl

def script (p : Profile) (op : DdlOperation) : Compile (List String) := do
  (← op.run p).mapM (·.serialize p)

theorem avoids_run (b : Breakdown) (op : DdlOperation) (p : Profile) : (op.run p).Avoids b := by
  have hkey (t : Table) (fk : ForeignKey) : (t.addForeignKey p fk).Avoids b :=
    ((t.checks_foreignKeyConstraint? fk).map _).avoids
  have hindex (t : Table) (i : Index) : (t.createIndex p i).Avoids b :=
    ((Checks.checkNameLength p ⟨.index, i.name⟩).map _).avoids
  cases op with
  | createTable t => exact t.checks_create.avoids
  | addColumn t c => exact (((t.checks_declareColumn c true).map _).require _).avoids
  | dropColumn t c => exact ((Checks.ok _).require _).avoids
  | addForeignKey t fk => exact hkey t fk
  | addForeignKeys t => exact Avoids.map (.mapM (hkey t)) _
  | addUnique t u => exact (t.checks_addUnique u).avoids
  | createIndex t i => exact hindex t i
  | createIndexes t => exact Avoids.map (.mapM (hindex t)) _
  | createSequence s => exact ((Checks.checkNameLength p ⟨.sequence, s.name⟩).map _).avoids
  | dropTable | addPrimaryKey | dropConstraint | dropIndex | dropSequence => exact .ok _

theorem avoids_script (b : Breakdown) (op : DdlOperation) (p : Profile)
    : (op.script p).Avoids b := by
  apply (op.avoids_run b p).bind
  intro statements
  apply Avoids.mapM
  intro d
  rw [d.serialize_eq_ok]
  exact .ok _

end DdlOperation

/-! ## Faults in expressions and statements -/

theorem Expr.isSome_fault?_iff {e : Expr}
    : e.fault?.isSome
        ↔
      (∃ x : Binary64, e = .literal (.float x) ∧ ¬ x.isFinite)
        ∨ (∃ scope negated, e = .existsIn scope negated)
        ∨ ∃ a scope negated, e = .inSelect a scope negated := by
  cases e with
  | literal value =>
    cases value with
    | float x => cases h : x.isFinite <;> simp [fault?, h]
    | _ => simp [fault?]
  | _ => simp [fault?]

/--
Writing a token panics exactly if it is a float that is infinite or no number. Without a text for
nested selects an expression has none exactly if such a float, or a nested select, occurs in it. The
reason is that of the first one, which is no panic, and all floats among its tokens are finite and
those of literals. No FROM clause, no query, no count, no change of rows and no definition of a
table comes to a panic, and if there is a statement, all floats in it have a token. The statements
that define tables do not depend on literals.
-/
theorem faults_never_written
    : (∀ (x : Binary64) (p : Profile),
        ((Token.float x).serialize p).Avoids .panic ↔ x.isFinite)
      ∧ (∀ (e : Expr) (p : Profile) (qualify : Bool),
        let ctx : RenderContext := { profile := p, qualify }
        (∀ err, e.sql ctx = .error err ↔ e.parts.findSome? Expr.fault? = some err)
          ∧ ((∃ err, e.sql ctx = .error err)
            ↔ ∃ d ∈ e.parts, (∃ x : Binary64, d = .literal (.float x) ∧ ¬ x.isFinite)
                ∨ (∃ scope negated, d = .existsIn scope negated)
                ∨ ∃ a scope negated, d = .inSelect a scope negated)
          ∧ ∀ f, e.fragment ctx = .ok f → ∀ x, .float x ∈ f.tokens →
              .literal (.float x) ∈ e.parts ∧ x.isFinite)
      ∧ (∀ (e : Expr) (ctx : RenderContext),
        (∀ scope, (ctx.subselect scope).Avoids .panic) → (e.sql ctx).Avoids .panic)
      ∧ (∀ (g : JoinGraph) (id : ScopeId) (p : Profile) (hint : Option String),
        (g.fromClause id p hint).Avoids .panic
          ∧ ∀ clause, g.fromClause id p hint = .ok clause → g.Serializable id)
      ∧ (∀ q : Query,
        (∀ lock, (q.render lock).Avoids .panic
          ∧ ∀ c, q.render lock = .ok c → q.emitted.Serializable .root)
          ∧ (q.renderCount.Avoids .panic ∧ ∀ c, q.renderCount = .ok c → q.SerializableCount)
          ∧ ∀ action id table, (q.bulk? action id table).Avoids .panic
            ∧ ∀ statement, q.bulk? action id table = .ok statement →
                q.SerializableBulk action id table statement)
      ∧ ∀ (op : DdlOperation) (p : Profile),
          (op.script p).Avoids .panic ∧ op.withoutConstants.run p = op.run p := by
  refine ⟨fun x p => Token.avoids_panic_iff, fun e p qualify => ⟨?_, ?_, ?_⟩,
    fun e ctx h => e.avoids_sql h, fun g id p hint => ⟨?_, ?_⟩, fun q => ?_, ?_⟩
  · exact fun err => Expr.sql_eq_error_iff
  · simp only [Expr.sql_eq_error_iff, ← Option.isSome_iff_exists, List.findSome?_isSome_iff,
      Expr.isSome_fault?_iff]
  · exact fun f hf x hx => ⟨Expr.literal_mem_parts e hf hx, Expr.writable_fragment e hf _ hx⟩
  · exact g.avoids_fromClause id p hint
  · exact fun clause h => JoinGraph.serializable_of_fromClause h
  · refine ⟨fun lock => ⟨?_, ?_⟩, ⟨?_, ?_⟩, fun action id table => ⟨?_, ?_⟩⟩
    · exact Query.avoids_render q.avoids_panic_context lock
    · exact fun c h => Query.serializable_of_render h
    · exact Query.avoids_renderCount q.avoids_panic_context
    · exact fun c h => Query.serializableCount_of_renderCount h
    · exact Query.avoids_bulk? q.avoids_panic_context action id table
        (Query.avoids_keyCondition fun a => Query.avoids_panic_renderNested _ _)
    · exact fun statement h => Query.serializableBulk_of_bulk? h
  · exact fun op p => ⟨op.avoids_script .panic p, op.run_withoutConstants p⟩

-- One float is refused inside of a function, and would be a panic if it were written. Another is
-- written in a join, in a nested select and as the new value of a column.
theorem faults_never_written_joined
    : let infinite : Binary64 := ⟨0x7FF0000000000000⟩
      let half : Binary64 := ⟨0x3FE0000000000000⟩
      let value : Expr := .literal (.float half)
      let refused : Expr := .inSelect (.cast (.literal (.float infinite)) "REAL") ⟨1⟩ false
      let table : Table := { name := "T", primaryKey := some { columns := ["ID"] } }
      let rel : Relation :=
        { name := "u", source := table, target := { name := "U" }
          foreignKey :=
            { columns := ["U_ID"], referencedTable := "U", primaryKeyColumns := ["ID"]
              constantColumns := [("RATE", .float half)] } }
      let q := (Query.new Vendor.generic.profile).afterAll
        [.join .root .root rel, .subselect .root, .fromTable ⟨1⟩ { name := "V" },
          .addItem ⟨1⟩ { expr := value }, .addItem .root { expr := .column ⟨0⟩ "ID" },
          .addCondition .root (.existsIn ⟨1⟩ false)]
      let source := "T t0 INNER JOIN U t1 ON t0.U_ID = t1.ID AND t0.RATE = 0.5"
      let condition := " WHERE EXISTS (SELECT 0.5 FROM V t2)"
      let statement : Rendered :=
        ⟨"UPDATE T SET A = 0.5 WHERE ID IN (SELECT DISTINCT t0.ID FROM " ++ source ++ condition
          ++ ")", []⟩
      (¬ ((Token.float infinite).serialize q.profile).Avoids .panic
          ∧ refused.sql { profile := q.profile } = .error (.nonFiniteLiteral infinite)
          ∧ (refused.sql q.context).Avoids .panic)
        ∧ (value.fragment { profile := q.profile } = .ok ⟨[.float half], []⟩
          ∧ half.isFinite)
        ∧ (q.graph.fromClause .root q.profile none = .ok ⟨source, []⟩
          ∧ q.graph.Serializable .root)
        ∧ ((q.render .unlocked).toOption.map (·.sql)
            = some ("SELECT t0.ID FROM " ++ source ++ condition)
          ∧ q.emitted.Serializable .root)
        ∧ (q.renderCount.toOption.map (·.sql)
            = some ("SELECT COUNT(*) FROM " ++ source ++ condition)
          ∧ q.SerializableCount)
        ∧ q.bulk? (.update [("A", value)]) .root table = .ok (some statement)
        ∧ q.SerializableBulk (.update [("A", value)]) .root table statement := by
  intro infinite half value refused table rel q source condition statement
  obtain ⟨hwriter, hexpr, hnested, hfrom, hquery, _⟩ := faults_never_written
  obtain ⟨hrender, ⟨_, hcount⟩, hbulk⟩ := hquery q
  have hclause : q.graph.fromClause .root q.profile none = .ok ⟨source, []⟩ := by decide +kernel
  have hsql : (q.render .unlocked).toOption.map (·.sql)
      = some ("SELECT t0.ID FROM " ++ source ++ condition) := by decide +kernel
  have hcountSql : q.renderCount.toOption.map (·.sql)
      = some ("SELECT COUNT(*) FROM " ++ source ++ condition) := by decide +kernel
  have hstatement : q.bulk? (.update [("A", value)]) .root table = .ok (some statement) := by
    decide +kernel
  obtain ⟨c, hc, _⟩ := Compile.exists_of_toOption hsql
  obtain ⟨c', hc', _⟩ := Compile.exists_of_toOption hcountSql
  obtain ⟨herror, _, _⟩ := hexpr refused q.profile true
  obtain ⟨_, _, hfloats⟩ := hexpr value q.profile true
  have hvalue : value.fragment { profile := q.profile } = .ok ⟨[.float half], []⟩ := by
    decide +kernel
  refine ⟨⟨?_, (herror _).mpr (by decide +kernel), ?_⟩, ⟨hvalue, ?_⟩, ⟨hclause, ?_⟩, ⟨hsql, ?_⟩,
    ⟨hcountSql, ?_⟩, hstatement, ?_⟩
  · rw [hwriter]
    decide
  · exact hnested refused q.context q.avoids_panic_context
  · exact (hfloats _ hvalue half (by simp)).2
  · exact (hfrom _ _ _ _).2 _ hclause
  · exact (hrender _).2 c hc
  · exact hcount c' hc'
  · exact (hbulk _ _ _).2 _ hstatement

end SqlDialect
