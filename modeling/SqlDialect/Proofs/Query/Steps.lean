import SqlDialect.Proofs.Expr.Steps
import SqlDialect.Proofs.Query.Locking
import SqlDialect.Proofs.Query.Places

/-!
This module contains what can go wrong when a select is rendered: the steps of the rendering, one
after the other, and which of them follow nested selects. All other steps are checks, which look at
nothing but the query itself. A check may fail, but none gives up following nested selects, and none
writes a float that has no text.
-/

namespace SqlDialect

/-! ## Steps of a select -/

namespace Select

variable (s : Select) (ctx : RenderContext)

theorem sequenced_itemList (numbered : Bool)
    : Sequenced (s.items.flatMap (·.expr.steps)) fun subselect =>
        s.itemList { ctx with subselect } numbered := by
  have hsteps : s.items.zipIdx.flatMap (fun x => x.1.expr.steps)
      = s.items.flatMap (·.expr.steps) := by
    conv_rhs => rw [← List.zipIdx_map_fst 0 s.items, List.flatMap_map]
  rw [← hsteps]
  apply Sequenced.map
  apply Sequenced.mapM
  intro x _
  exact (x.1.expr.sequenced_fragment ctx).map _

theorem sequenced_conditionList (others : Nat)
    : Sequenced (s.conditions.flatMap (·.steps)) fun subselect =>
        s.conditionList { ctx with subselect } others := by
  apply Sequenced.mapM
  intro e _
  exact (e.sequenced_sql ctx).map _

theorem sequenced_groupByClause
    : Sequenced (s.groupBy.flatMap (·.steps)) fun subselect =>
        s.groupByClause { ctx with subselect } := by
  unfold groupByClause
  cases s.groupBy with
  | nil => exact .ok _
  | cons e es => exact (Sequenced.mapM fun e _ => e.sequenced_fragment ctx).map _

theorem sequenced_havingClause
    : Sequenced (s.having.flatMap (·.steps)) fun subselect =>
        s.havingClause { ctx with subselect } := by
  unfold havingClause
  cases s.having with
  | nil => exact .ok _
  | cons e es => exact (Sequenced.mapM fun e _ => e.sequenced_fragment ctx).map _

theorem sequenced_orderByClause
    : Sequenced (s.orderBy.flatMap (·.expr.steps)) fun subselect =>
        s.orderByClause { ctx with subselect } := by
  apply Sequenced.map
  apply Sequenced.mapM
  intro item _
  exact (item.expr.sequenced_fragment ctx).map _

def clauseExprs (ordered : Bool) : List Expr :=
  s.conditions ++ (s.groupBy ++ (s.having ++ if ordered then s.orderBy.map (·.expr) else []))

theorem exprs_emitted : s.emitted.exprs = s.items.map (·.expr) ++ s.clauseExprs s.isOrdered := by
  unfold emitted exprs clauseExprs
  cases s.isOrdered <;> simp

end Select

namespace Query

variable {q : Query} {id : ScopeId} {s : Select}

theorem select_eq_ok_iff : q.select id = .ok s ↔ q.select? id = some s := by
  unfold select
  cases q.select? id <;> simp

theorem sequenced_source (hs : q.select? id = some s) (ctx : RenderContext) (hint : Option String)
    : Sequenced (.ofCompile (q.graph.fromClause id q.profile hint)
          :: s.conditions.flatMap (·.steps)) fun subselect =>
        q.source id { ctx with subselect } hint := by
  simp only [source, select_eq_ok_iff.mpr hs, Compile.ok_bind]
  have : Nonempty FromClause := ⟨⟨"", []⟩⟩
  apply (Sequenced.fixed (q.graph.fromClause id q.profile hint)).bind
  intro tables
  exact (s.sequenced_conditionList ctx _).map _

theorem sequenced_body (hs : q.select? id = some s) (ctx : RenderContext) (hint : Option String)
    (ordered : Bool)
    : Sequenced (.ofCompile (q.graph.fromClause id q.profile hint)
          :: (s.clauseExprs ordered).flatMap (·.steps)) fun subselect =>
        q.body id { ctx with subselect } hint ordered := by
  simp only [body_eq (select_eq_ok_iff.mpr hs), Select.clauseExprs, List.flatMap_append]
  apply (sequenced_source hs ctx hint).bind
  intro x
  apply (s.sequenced_groupByClause ctx).bind
  intro groupBy
  apply (s.sequenced_havingClause ctx).bind
  intro having
  cases ordered with
  | false => exact .ok _
  | true =>
    simp only [if_true, List.flatMap_map]
    exact (s.sequenced_orderByClause ctx).map _

def steps (q : Query) (id : ScopeId) (lock : LockRequest) : List RenderStep :=
  match q.select? id with
  | none => [.check (.error (.aliasing (.unknownScope id)))]
  | some s =>
    .check (if s.items.isEmpty then .error (.aliasing (.noItems id)) else .ok ())
      :: .ofCompile (q.lockClause? id lock)
      :: .ofCompile (q.tableCount id)
      :: (s.items.flatMap (·.expr.steps)
        ++ .ofCompile (q.graph.fromClause id q.profile (tableHint q.profile id lock))
          :: (s.clauseExprs (q.shape id s).ordered).flatMap (·.steps))

theorem sequenced_renderScope (q : Query) (id : ScopeId) (lock : LockRequest) (ctx : RenderContext)
    : Sequenced (q.steps id lock) fun subselect =>
        q.renderScope id lock { ctx with subselect } := by
  have : Nonempty Rendered := ⟨⟨"", []⟩⟩
  simp only [renderScope_eq, steps]
  cases hs : q.select? id with
  | none =>
    simp only [select, hs]
    exact .error _ []
  | some s =>
    simp only [select_eq_ok_iff.mpr hs, Compile.ok_bind]
    cases s.items.isEmpty with
    | true => exact .error _ _
    | false =>
      simp only [Bool.false_eq_true, if_false]
      apply Sequenced.skip
      apply (Sequenced.fixed (q.lockClause? id lock)).bind
      intro lockClause
      apply (Sequenced.fixed (q.tableCount id)).bind
      intro tables
      apply (s.sequenced_itemList ctx _).bind
      intro items
      exact (sequenced_body hs ctx _ _).map _

end Query

/-! ## Checks -/

/--
How a rendering can break down without any check having failed.
-/
inductive Breakdown where
  /-- It gives up following nested selects. -/
  | endlessNesting
  /-- It is to write a float that has no text. -/
  | panic

def CompileError.breakdown? : CompileError → Option Breakdown
  | .aliasing .endlessNesting => some .endlessNesting
  | .nonFiniteLiteral _ (some _) => some .panic
  | _ => none

namespace Compile

/--
The computation does not break down in this way.
-/
def Avoids {α : Type} (b : Breakdown) (x : Compile α) : Prop :=
  ∀ err, x = .error err → err.breakdown? ≠ some b

/--
The computation does not give up following nested selects.
-/
def Settles {α : Type} (x : Compile α) : Prop := x ≠ .error (.aliasing .endlessNesting)

theorem settles_iff {α : Type} {x : Compile α} : x.Settles ↔ x.Avoids .endlessNesting := by
  constructor
  · rintro h err rfl hb
    unfold CompileError.breakdown? at hb
    split at hb
    · exact h rfl
    · cases hb
    · cases hb
  · rintro h rfl
    exact h _ rfl rfl

namespace Avoids

variable {α β : Type} {b : Breakdown} {x : Compile α} {f : α → Compile β}

theorem error_iff {err : CompileError}
    : Avoids b (.error err : Compile α) ↔ err.breakdown? ≠ some b := by
  constructor
  · exact fun h => h err rfl
  · rintro h err' herr
    cases herr
    exact h

theorem ok (a : α) : Avoids b (.ok a) := by
  intro err h
  cases h

theorem error {err : CompileError} (h : err.breakdown? = none)
    : Avoids b (.error err : Compile α) :=
  error_iff.mpr (by simp [h])

theorem bind (hx : x.Avoids b) (hf : ∀ a, (f a).Avoids b) : (x >>= f).Avoids b := by
  cases x with
  | error e => exact error_iff.mpr (error_iff.mp hx)
  | ok a => exact hf a

theorem map (hx : x.Avoids b) (g : α → β) : (x >>= fun a => .ok (g a)).Avoids b :=
  hx.bind fun a => ok (g a)

theorem ite {c : Prop} [Decidable c] {x y : Compile α} (hx : x.Avoids b) (hy : y.Avoids b)
    : (if c then x else y).Avoids b := by
  split
  · exact hx
  · exact hy

theorem mapM {as : List α} (hf : ∀ a, (f a).Avoids b) : (as.mapM f).Avoids b := by
  intro err h
  obtain ⟨_, a, _, _, _, ha⟩ := mapM_eq_error_iff.mp h
  exact hf a err ha

theorem foldlM {f : β → α → Compile β} (hf : ∀ y a, (f y a).Avoids b) (as : List α) (y : β)
    : (as.foldlM f y).Avoids b := by
  induction as generalizing y with
  | nil => exact ok y
  | cons a as ih =>
    rw [List.foldlM_cons]
    exact (hf y a).bind ih

end Avoids

end Compile

open Compile (Avoids)

instance {α : Type} : (x : Compile α) → Decidable x.Settles
  | .ok _ => .isTrue fun h => by cases h
  | .error e =>
    decidable_of_iff (e ≠ .aliasing .endlessNesting)
      ⟨fun h he => h (Except.error.inj he), fun h he => h (congrArg Except.error he)⟩

section

variable {b : Breakdown}

theorem Profile.avoids_require (p : Profile) (c : Capability) : (p.require c).Avoids b := by
  unfold require
  exact .ite (.ok ()) (.error rfl)

theorem Literal.avoids_token (l : Literal) : l.token.Avoids b := by
  cases l with
  | float x =>
    simp only [token]
    split
    · exact .ok _
    · exact .error rfl
  | _ => exact .ok _

namespace JoinEdge

variable (e : JoinEdge) (p : Profile)

theorem avoids_predicate (marker : String) : (e.predicate p marker).Avoids b := by
  rw [predicate_eq]
  refine .map (.mapM fun c => ?_) _
  rw [constantComparison_eq, constantTokens, map_eq_pure_bind, map_eq_pure_bind]
  exact (c.2.2.avoids_token.map _).map _

theorem avoids_nativePredicate : (e.nativePredicate p).Avoids b :=
  .ite (.ite (.error rfl) (e.avoids_predicate p _)) (e.avoids_predicate p _)

theorem avoids_condition? : (e.condition? p).Avoids b := by
  unfold condition?
  rw [map_eq_pure_bind]
  exact .ite (.ok none) ((e.avoids_predicate p "").map some)

end JoinEdge

namespace JoinGraph

variable (g : JoinGraph) (id : ScopeId)

theorem avoids_scope : (g.scope id).Avoids b := by
  unfold scope
  split
  · exact .ok _
  · exact .error rfl

theorem avoids_chainedFrom (p : Profile) (hint : Option String) (aliases : List Alias)
    (edges : List JoinEdge) : (g.chainedFrom p hint aliases edges).Avoids b := by
  have hadd : ∀ chain step, (JoinChain.add p chain step).Avoids b := by
    intro chain step
    apply (step.edge.avoids_condition? p).bind
    intro condition
    split
    · exact .ok _
    · exact .ok _
    · exact .ite (.ok _) (.ok _)
  apply Avoids.bind (.mapM fun _ => .foldlM hadd _ _)
  intro chains
  obtain ⟨texts, htexts⟩ := g.exists_writeChains p hint chains
  rw [htexts]
  exact .ok _

theorem avoids_fromClause (p : Profile) (hint : Option String)
    : (g.fromClause id p hint).Avoids b := by
  have hlisted : ∀ aliases edges predicate, (∀ e, (predicate e).Avoids b) →
      (g.listedFrom p hint aliases edges predicate).Avoids b := by
    intro aliases edges predicate hpredicate
    rw [listedFrom_eq]
    exact .map (.mapM hpredicate) _
  unfold fromClause
  apply (g.avoids_scope id).bind
  intro s
  refine .ite (.error rfl) (.bind (.mapM fun e => e.avoids_predicate p "") ?_)
  intro correlations
  cases s.joinSyntax with
  | sql92 => exact (g.avoids_chainedFrom p hint _ _).map _
  | traditional => exact (hlisted _ _ _ fun e => e.avoids_predicate p "").map _
  | native => exact (hlisted _ _ _ fun e => e.avoids_nativePredicate p).map _

theorem avoids_aliasOf (table : Table) (path : JoinPath) : (g.aliasOf id table path).Avoids b := by
  apply ((g.avoids_scope id).map _).bind
  intro a
  cases a with
  | some a => exact .ok a
  | none => exact .error rfl

end JoinGraph

theorem LockTarget.avoids_check (t : LockTarget) (p : Profile) : (t.check p).Avoids b := by
  have hneeds : (t.needs.forM p.require).Avoids b := by
    induction t.needs with
    | nil => exact .ok ()
    | cons c cs ih => exact (p.avoids_require c).bind fun _ => ih
  unfold check
  refine .ite (.error rfl) ?_
  apply (p.avoids_require .selectForUpdate).bind
  intro _
  apply hneeds.bind
  intro _
  exact .ite (.error rfl) (.ok ())

theorem Locking.avoids_clause? (locking : Locking) (p : Profile) (isolation : Option Isolation)
    (forUpdate nested : Bool) : (locking.clause? p isolation forUpdate nested).Avoids b := by
  unfold clause?
  refine .ite (.ite (.ok none) ?_) ?_
  · apply (p.avoids_require .selectForUpdate).bind
    intro _
    cases locking <;> exact .ok _
  · split <;> exact .ok _

namespace Query

variable (q : Query) (id : ScopeId)

theorem avoids_select : (q.select id).Avoids b := by
  unfold select
  split
  · exact .ok _
  · exact .error rfl

theorem avoids_tableCount : (q.tableCount id).Avoids b := (q.graph.avoids_scope id).map _

theorem avoids_lockTarget (lock : LockRequest) : (q.lockTarget id lock).Avoids b :=
  (q.avoids_select id).bind fun _ => (q.graph.avoids_scope id).map _

theorem avoids_lockClause? (lock : LockRequest) : (q.lockClause? id lock).Avoids b := by
  have hclause : (q.profile.locking.clause? q.profile lock.effectiveIsolation? (forUpdate id lock)
      (id ≠ .root)).Avoids b :=
    q.profile.locking.avoids_clause? q.profile _ _ _
  refine .ite ?_ hclause
  apply (q.avoids_lockTarget id lock).bind
  intro t
  exact (t.avoids_check q.profile).bind fun _ => hclause

end Query

def RenderStep.Avoids (b : Breakdown) : RenderStep → Prop
  | .check outcome => outcome.Avoids b
  | .select _ => True

theorem RenderStep.avoids_ofCompile {α : Type} {x : Compile α} (h : x.Avoids b)
    : (ofCompile x).Avoids b := by
  cases x with
  | ok a => exact Compile.Avoids.ok ()
  | error e => exact Compile.Avoids.error_iff.mpr (Compile.Avoids.error_iff.mp h)

theorem Sequenced.avoids {α : Type} {steps : List RenderStep}
    {x : (ScopeId → Compile Rendered) → Compile α} {subselect : ScopeId → Compile Rendered}
    (hx : Sequenced steps x) (hsteps : ∀ step ∈ steps, step.Avoids b)
    (hselects : ∀ scope, .select scope ∈ steps → (subselect scope).Avoids b)
    : (x subselect).Avoids b := by
  intro err h
  obtain ⟨before, step, after, hsteps', _, hstep⟩ := hx.eq_error_iff.mp h
  have hmem : step ∈ steps := by simp [hsteps']
  cases step with
  | check outcome => exact Avoids.map (hsteps _ hmem) _ err hstep
  | select scope => exact hselects scope hmem err hstep

theorem Expr.avoids_steps (e : Expr) : ∀ step ∈ e.steps, step.Avoids b := by
  induction e using of_operands with
  | step e ih =>
    rw [steps_eq_operands, List.forall_mem_append, List.forall_mem_flatMap]
    refine ⟨ih, ?_⟩
    cases e with
    | literal value =>
      exact List.forall_mem_singleton.mpr (RenderStep.avoids_ofCompile value.avoids_token)
    | existsIn | inSelect => simp [ownStep?, RenderStep.Avoids]
    | _ => simp [ownStep?]

theorem Expr.avoids_fragment (e : Expr) {ctx : RenderContext}
    (h : ∀ scope, (ctx.subselect scope).Avoids b) : (e.fragment ctx).Avoids b :=
  (e.sequenced_fragment ctx).avoids e.avoids_steps fun scope _ => h scope

theorem Expr.avoids_sql (e : Expr) {ctx : RenderContext}
    (h : ∀ scope, (ctx.subselect scope).Avoids b) : (e.sql ctx).Avoids b :=
  (e.sequenced_sql ctx).avoids e.avoids_steps fun scope _ => h scope

theorem Query.avoids_steps (q : Query) (id : ScopeId) (lock : LockRequest)
    : ∀ step ∈ q.steps id lock, step.Avoids b := by
  unfold steps
  cases q.select? id with
  | none => exact List.forall_mem_singleton.mpr (Avoids.error rfl)
  | some s =>
    simp only [List.forall_mem_cons, List.forall_mem_append, List.forall_mem_flatMap]
    refine ⟨?_, ?_, ?_, ?_, ?_, ?_⟩
    · exact Avoids.ite (.error rfl) (.ok ())
    · exact RenderStep.avoids_ofCompile (q.avoids_lockClause? id lock)
    · exact RenderStep.avoids_ofCompile (q.avoids_tableCount id)
    · exact fun item _ => item.expr.avoids_steps
    · exact RenderStep.avoids_ofCompile (q.graph.avoids_fromClause id q.profile _)
    · exact fun e _ => e.avoids_steps

end

/-! ## References -/

namespace Query

def Refers (q : Query) (s t : ScopeId) : Prop :=
  ∃ x, q.select? s = some x ∧ ∃ e ∈ x.exprs, t ∈ e.nestedSelects

/--
No select refers to itself, not even through others.
-/
def Acyclic (q : Query) : Prop := ∀ s, ¬ Relation.TransGen q.Refers s s

variable {q : Query} {s t : ScopeId}

theorem Refers.of_emitted (h : q.emitted.Refers s t) : q.Refers s t := by
  obtain ⟨x, hx, e, he, ht⟩ := h
  rw [select?_emitted] at hx
  obtain ⟨y, hy, rfl⟩ := Option.map_eq_some_iff.mp hx
  refine ⟨y, hy, e, ?_, ht⟩
  unfold Select.exprs Select.emitted at he
  split at he
  · exact he
  · simp only [List.map_nil, List.append_nil] at he
    exact List.mem_append_left _ he

-- The order of rows is the only thing that may be asked for and not rendered.
theorem select_mem_steps_iff {lock : LockRequest}
    : .select t ∈ q.steps s lock ↔ q.emitted.Refers s t := by
  simp only [Refers, select?_emitted, steps]
  cases q.select? s with
  | none => simp
  | some x =>
    have hflat : ∀ es : List Expr,
        (∃ e ∈ es, t ∈ e.nestedSelects) ↔ .select t ∈ es.flatMap (·.steps) := by
      simp [Expr.mem_nestedSelects_iff]
    have hordered : (q.shape s x).ordered = x.isOrdered := rfl
    simp only [Option.map_some, Option.some.injEq, exists_eq_left', hflat, Select.exprs_emitted,
      List.flatMap_append, List.flatMap_map, hordered]
    simp [RenderStep.ofCompile]

end Query
end SqlDialect
