import SqlDialect.Profile.Default
import SqlDialect.Proofs.Expr.Places
import SqlDialect.Proofs.Query.Scope

/-!
This module contains the places of parameters in statements. The parameters that a statement lists
are those of its places, from left to right.
-/

namespace SqlDialect

open Compile (Tracks)

theorem Vendor.functions_inOrder (v : Vendor) : v.profile.functions.InOrder := by
  constructor
  · cases v <;> decide
  · intro t
    cases v <;> cases t <;> decide
  · cases v <;> decide
  · cases v <;> decide

/-! ## Binding -/

def Select.bind (ρ : Binding) (s : Select) : Select :=
  { s with
    items := s.items.map fun item => { item with expr := item.expr.bind ρ }
    conditions := s.conditions.map (·.bind ρ)
    having := s.having.map (·.bind ρ)
    groupBy := s.groupBy.map (·.bind ρ)
    orderBy := s.orderBy.map fun item => { item with expr := item.expr.bind ρ } }

def Query.bind (ρ : Binding) (q : Query) : Query := { q with selects := q.selects.map (·.bind ρ) }

def BulkAction.bind (ρ : Binding) : BulkAction → BulkAction
  | .delete => .delete
  | .update assignments => .update (assignments.map fun (column, e) => (column, e.bind ρ))

def Select.exprs (s : Select) : List Expr :=
  s.items.map (·.expr) ++ s.conditions ++ s.groupBy ++ s.having ++ s.orderBy.map (·.expr)

def Query.exprs (q : Query) : List Expr := q.selects.flatMap (·.exprs)

def BulkAction.exprs : BulkAction → List Expr
  | .delete => []
  | .update assignments => assignments.map (·.2)

namespace Select

section Bind

variable (ρ : Binding) (s : Select)

@[simp]
theorem isAggregate_bind : (s.bind ρ).isAggregate = s.isAggregate := by
  simp [isAggregate, bind, Function.comp_def]

@[simp]
theorem range_bind : (s.bind ρ).range = s.range := rfl

@[simp]
theorem isEmpty_groupBy_bind : (s.bind ρ).groupBy.isEmpty = s.groupBy.isEmpty := List.isEmpty_map

@[simp]
theorem isGrouped_bind : (s.bind ρ).isGrouped = s.isGrouped := by
  simp [isGrouped]

@[simp]
theorem isOrdered_bind : (s.bind ρ).isOrdered = s.isOrdered := by
  have horderBy : (s.bind ρ).orderBy.isEmpty = s.orderBy.isEmpty := List.isEmpty_map
  simp [isOrdered, horderBy]

end Bind

/-! ## Clauses -/

section Clauses

variable {ctx : RenderContext} {nested : Binding → ScopeId → Compile Rendered} {s : Select}

def Bound (ctx : RenderContext) (nested : Binding → ScopeId → Compile Rendered)
    (es : List Expr) : Prop :=
  ∀ e ∈ es,
    Tracks (Fragment.Binds ctx.profile) (e.fragment ctx)
      fun ρ => (e.bind ρ).fragment { ctx with subselect := nested ρ }

theorem Bound.clauses (h : Bound ctx nested s.exprs)
    : Bound ctx nested (s.items.map (·.expr)) ∧ Bound ctx nested s.conditions
        ∧ Bound ctx nested s.groupBy ∧ Bound ctx nested s.having
        ∧ Bound ctx nested (s.orderBy.map (·.expr)) := by
  simpa only [Bound, exprs, List.forall_mem_append, and_assoc] using h

theorem tracks_itemList (h : Bound ctx nested (s.items.map (·.expr))) (numbered : Bool)
    : Tracks (Fragment.Binds ctx.profile) (s.itemList ctx numbered)
        fun ρ => (s.bind ρ).itemList { ctx with subselect := nested ρ } numbered := by
  simp only [itemList, bind, List.zipIdx_map]
  apply Tracks.map (R := Listwise (Fragment.Binds ctx.profile))
  · apply Tracks.mapM
    intro item hitem
    have hmem : item.1.expr ∈ s.items.map (·.expr) :=
      List.mem_map_of_mem (List.fst_mem_of_mem_zipIdx hitem)
    apply Tracks.map (h _ hmem)
    intro f f' hf
    exact .append hf (.ofTokens _)
  · intro fs fs' hfs
    exact .commaSep hfs

theorem tracks_conditionList (h : Bound ctx nested s.conditions) (others : Nat)
    : Tracks (Listwise Rendered.Binds) (s.conditionList ctx others)
        fun ρ => (s.bind ρ).conditionList { ctx with subselect := nested ρ } others := by
  simp only [conditionList, bind, List.length_map]
  apply Tracks.mapM
  intro e he
  simp only [Expr.isOr_bind, Expr.sql_eq]
  apply Tracks.map (R := Rendered.Binds) (Tracks.map (h e he) fun _ _ hf => hf)
  intro r r' hr
  split
  · exact hr.around "(" ")"
  · exact hr

theorem tracks_groupByClause (h : Bound ctx nested s.groupBy)
    : Tracks (Fragment.Binds ctx.profile) (s.groupByClause ctx)
        fun ρ => (s.bind ρ).groupByClause { ctx with subselect := nested ρ } := by
  simp only [groupByClause, isEmpty_groupBy_bind]
  split
  · exact .ok .empty
  · apply Tracks.map (Tracks.mapM h)
    intro fs fs' hfs
    exact .append (.ofTokens _) (.commaSep hfs)

theorem tracks_havingClause (h : Bound ctx nested s.having)
    : Tracks (Fragment.Binds ctx.profile) (s.havingClause ctx)
        fun ρ => (s.bind ρ).havingClause { ctx with subselect := nested ρ } := by
  have hhaving : ∀ ρ, (s.bind ρ).having.isEmpty = s.having.isEmpty := fun ρ => List.isEmpty_map
  simp only [havingClause, hhaving]
  split
  · exact .ok .empty
  · apply Tracks.map (Tracks.mapM h)
    intro fs fs' hfs
    exact .append (.ofTokens _) (.separated hfs _)

theorem tracks_orderByClause (h : Bound ctx nested (s.orderBy.map (·.expr)))
    : Tracks (Fragment.Binds ctx.profile) (s.orderByClause ctx)
        fun ρ => (s.bind ρ).orderByClause { ctx with subselect := nested ρ } := by
  simp only [orderByClause, bind]
  apply Tracks.map (R := Listwise (Fragment.Binds ctx.profile))
  · apply Tracks.mapM
    intro item hitem
    apply Tracks.map (h item.expr (List.mem_map_of_mem hitem))
    intro f f' hf
    exact .append hf (.ofTokens _)
  · intro fs fs' hfs
    exact .append (.ofTokens _) (.commaSep hfs)

end Clauses

end Select

/-! ## Selects -/

theorem Rendered.Binds.conjunction? {rs : List Rendered} {ss : Binding → List Rendered}
    (h : Listwise Rendered.Binds rs ss)
    : Optionwise Rendered.Binds (Rendered.conjunction? rs)
        fun ρ => Rendered.conjunction? (ss ρ) := by
  cases h with
  | nil => exact .none
  | cons head tail => exact .some (.intercalate (.cons head tail) " AND ")

theorem Listwise.texts (ts : List String)
    : Listwise Rendered.Binds (ts.map (⟨·, []⟩)) fun _ => ts.map (⟨·, []⟩) := by
  induction ts with
  | nil => exact .nil
  | cons t ts ih => exact .cons (.text t) ih

structure SelectSource.Binds (x : SelectSource) (y : Binding → SelectSource) : Prop where
  tables : ∀ ρ, (y ρ).tables = x.tables
  condition : Optionwise Rendered.Binds x.condition fun ρ => (y ρ).condition

theorem Fragment.Binds.whereClause {p : Profile} {x : Option Rendered}
    {y : Binding → Option Rendered}
    : Optionwise Rendered.Binds x y →
        Fragment.Binds p
          (match x with
            | some c => .ofTokens [.space, .keyword .where_, .space] ++ .ofRendered c
            | none => .empty)
          fun ρ =>
            match y ρ with
            | some c => .ofTokens [.space, .keyword .where_, .space] ++ .ofRendered c
            | none => .empty := by
  intro h
  cases h with
  | none => exact .empty
  | some h => exact .append (.ofTokens _) (.ofRendered h)

namespace Query

variable {q : Query} {nested : Binding → ScopeId → Compile Rendered}

theorem select?_bind (q : Query) (ρ : Binding) (id : ScopeId)
    : (q.bind ρ).select? id = (q.select? id).map (·.bind ρ) :=
  List.getElem?_map

theorem tracks_select (q : Query) (id : ScopeId)
    : Tracks (fun s s' => s ∈ q.selects ∧ s' = fun ρ => s.bind ρ) (q.select id)
        fun ρ => (q.bind ρ).select id := by
  simp only [select, select?_bind]
  cases hs : q.select? id with
  | none => exact .error
  | some s => exact .ok ⟨List.mem_of_getElem? hs, rfl⟩

@[simp]
theorem profile_bind (ρ : Binding) : (q.bind ρ).profile = q.profile := rfl

@[simp]
theorem isDistinct_bind (ρ : Binding) (id : ScopeId)
    : (q.bind ρ).isDistinct id = q.isDistinct id := by
  simp only [isDistinct, select?_bind]
  cases q.select? id <;> rfl

@[simp]
theorem shape_bind (ρ : Binding) (id : ScopeId) (s : Select)
    : (q.bind ρ).shape id (s.bind ρ) = q.shape id s := by
  simp [shape]

def Bound (q : Query) (nested : Binding → ScopeId → Compile Rendered) (ctx : RenderContext) :
    Prop :=
  ∀ s ∈ q.selects, Select.Bound ctx nested s.exprs

theorem tracks_source {ctx : RenderContext} (h : q.Bound nested ctx) (id : ScopeId)
    (hint : Option String)
    : Tracks SelectSource.Binds (q.source id ctx hint)
        fun ρ => (q.bind ρ).source id { ctx with subselect := nested ρ } hint := by
  unfold source
  apply Tracks.bind (tracks_select q id)
  rintro s _ ⟨hs, rfl⟩
  obtain ⟨-, hconditions, -⟩ := (h s hs).clauses
  simp only [shape_bind]
  apply Tracks.bind_same
  intro tables
  apply Tracks.map (Select.tracks_conditionList hconditions _)
  intro rs rs' hrs
  exact ⟨fun _ => rfl, Rendered.Binds.conjunction? (hrs.append (.texts _))⟩

theorem tracks_body {ctx : RenderContext} (h : q.Bound nested ctx) (id : ScopeId)
    (hint : Option String) (ordered : Bool)
    : Tracks (Fragment.Binds ctx.profile) (q.body id ctx hint ordered)
        fun ρ => (q.bind ρ).body id { ctx with subselect := nested ρ } hint ordered := by
  unfold body
  apply Tracks.bind (tracks_select q id)
  rintro s _ ⟨hs, rfl⟩
  obtain ⟨-, -, hgroupBy, hhaving, horderBy⟩ := (h s hs).clauses
  apply Tracks.bind (tracks_source h id hint)
  intro source source' hsource
  apply Tracks.bind (Select.tracks_groupByClause hgroupBy)
  intro g g' hg
  apply Tracks.bind (Select.tracks_havingClause hhaving)
  intro v v' hv
  have htables : Fragment.Binds ctx.profile _ _ :=
    .ofTokens [.keyword .from_, .space, .raw source.tables]
  have hclauses := ((htables.append (.whereClause hsource.condition)).append hg).append hv
  simp only [hsource.tables]
  cases ordered with
  | false => exact .ok (hclauses.append .empty)
  | true =>
    apply Tracks.map (Select.tracks_orderByClause horderBy)
    intro o o' ho
    exact hclauses.append ho

theorem lockClause?_bind (ρ : Binding) (id : ScopeId) (lock : LockRequest)
    : (q.bind ρ).lockClause? id lock = q.lockClause? id lock := by
  have htarget : (q.bind ρ).lockTarget id lock = q.lockTarget id lock := by
    simp only [lockTarget, select, select?_bind]
    cases q.select? id with
    | none => rfl
    | some s =>
      simp only [Option.map_some, Compile.ok_bind, shape_bind, Select.isAggregate_bind]
      rfl
  simp only [lockClause?, htarget]
  rfl

theorem wrap_eq_append (paging : Paging) (r : RowRange) (shape : SelectShape)
    : ∃ before after, ∀ inner, paging.wrap inner r shape = before ++ inner ++ after := by
  unfold Paging.wrap
  split
  · split
    · refine ⟨"SELECT * FROM (", s!") WHERE ROWNUM <= {r.upper?.getD 0}", fun inner => ?_⟩
      simp only [String.append_assoc]
      rfl
    · refine ⟨"SELECT * FROM (SELECT r.*, ROWNUM RNUM FROM (", ?_, fun inner => ?_⟩
      rotate_left
      · simp only [String.append_assoc]
        rfl
  · exact ⟨"", "", fun inner => by simp⟩

theorem selectText_binds {p : Profile} {items body : Fragment} {items' body' : Binding → Fragment}
    (hitems : Fragment.Binds p items items') (hbody : Fragment.Binds p body body')
    (range : RowRange) (shape : SelectShape) (lockClause : Option String)
    : (selectText p range shape lockClause items body).Binds
        fun ρ => selectText p range shape lockClause (items' ρ) (body' ρ) := by
  obtain ⟨before, after, hwrap⟩ := wrap_eq_append p.paging range shape
  have hinner : ∀ head tail,
      Fragment.Binds p (.ofTokens head ++ items ++ .ofTokens [.space] ++ body ++ .ofTokens tail)
        fun ρ => .ofTokens head ++ items' ρ ++ .ofTokens [.space] ++ body' ρ ++ .ofTokens tail := by
    intro head tail
    have hhead := (Fragment.Binds.ofTokens head).append hitems
    exact ((hhead.append (.ofTokens [.space])).append hbody).append (.ofTokens tail)
  simp only [selectText, hwrap]
  exact (hinner _ _).around before after

theorem tracks_renderScope {ctx : RenderContext} (hprofile : ctx.profile = q.profile)
    (h : q.Bound nested ctx) (id : ScopeId) (lock : LockRequest)
    : Tracks Rendered.Binds (q.renderScope id lock ctx)
        fun ρ => (q.bind ρ).renderScope id lock { ctx with subselect := nested ρ } := by
  simp only [renderScope_eq, lockClause?_bind]
  apply Tracks.bind (tracks_select q id)
  rintro s _ ⟨hs, rfl⟩
  obtain ⟨hitems, -⟩ := (h s hs).clauses
  have hempty : ∀ ρ, (s.bind ρ).items.isEmpty = s.items.isEmpty := fun ρ => List.isEmpty_map
  simp only [shape_bind, hempty]
  split
  · exact .error
  · apply Tracks.bind_same
    intro lockClause
    apply Tracks.bind_same
    intro tables
    apply Tracks.bind (Select.tracks_itemList hitems _)
    intro items items' hitems
    apply Tracks.map (tracks_body h id _ _)
    intro body body' hbody
    rw [hprofile] at hitems hbody
    exact selectText_binds hitems hbody _ _ _

structure InOrder (q : Query) : Prop where
  functions : q.profile.functions.InOrder
  exprs : ∀ e ∈ q.exprs, e.isInOrder

theorem InOrder.bound (h : q.InOrder) {ctx : RenderContext} (hprofile : ctx.profile = q.profile)
    (hnested : ∀ scope, Tracks Rendered.Binds (ctx.subselect scope) fun ρ => nested ρ scope)
    : q.Bound nested ctx := by
  intro s hs e he
  apply Expr.tracks_fragment (hprofile ▸ h.functions) hnested
  exact h.exprs e (List.mem_flatMap.mpr ⟨s, hs, he⟩)

theorem InOrder.tracks_renderNested (h : q.InOrder) (depth : Nat) (id : ScopeId)
    : Tracks Rendered.Binds (q.renderNested depth id)
        fun ρ => (q.bind ρ).renderNested depth id := by
  -- What a select refers to is one level deeper, so the induction is on the depth that is left.
  induction depth generalizing id with
  | zero =>
    unfold renderNested
    split
    · exact .error
    · exact .error
  | succ depth ih =>
    unfold renderNested
    split
    · exact .error
    · exact tracks_renderScope rfl (h.bound rfl ih) id .unlocked

theorem InOrder.bound_context (h : q.InOrder)
    : q.Bound (fun ρ => (q.bind ρ).renderNested q.selects.length) q.context :=
  h.bound rfl (h.tracks_renderNested q.selects.length)

theorem context_bind (ρ : Binding)
    : (q.bind ρ).context
        =
      { q.context with subselect := (q.bind ρ).renderNested q.selects.length } := by
  have hlength : (q.bind ρ).selects.length = q.selects.length := List.length_map _
  rw [context, hlength]
  rfl

theorem InOrder.tracks_fragment (h : q.InOrder) (qualify : Bool) {e : Expr} (he : e.isInOrder)
    : Tracks (Fragment.Binds q.profile) (e.fragment { q.context with qualify })
        fun ρ => (e.bind ρ).fragment { (q.bind ρ).context with qualify } := by
  simp only [context_bind]
  exact Expr.tracks_fragment h.functions (h.tracks_renderNested q.selects.length) e he

theorem InOrder.tracks_source (h : q.InOrder) (id : ScopeId) (hint : Option String)
    : Tracks SelectSource.Binds (q.source id q.context hint)
        fun ρ => (q.bind ρ).source id (q.bind ρ).context hint := by
  simp only [context_bind]
  exact Query.tracks_source h.bound_context id hint

theorem InOrder.tracks_body (h : q.InOrder) (id : ScopeId) (hint : Option String) (ordered : Bool)
    : Tracks (Fragment.Binds q.profile) (q.body id q.context hint ordered)
        fun ρ => (q.bind ρ).body id (q.bind ρ).context hint ordered := by
  simp only [context_bind]
  exact Query.tracks_body h.bound_context id hint ordered

theorem InOrder.tracks_renderUnlocked (h : q.InOrder) (id : ScopeId)
    : Tracks Rendered.Binds (q.renderUnlocked id) fun ρ => (q.bind ρ).renderUnlocked id := by
  simp only [renderUnlocked, context_bind]
  exact tracks_renderScope rfl h.bound_context id .unlocked

end Query

/-! ## Statements -/

def CompiledSelect.rendered (c : CompiledSelect) : Rendered := ⟨c.sql, c.params⟩

namespace Query

variable {q : Query}

theorem InOrder.tracks_render (h : q.InOrder) (lock : LockRequest)
    : Tracks (fun c c' => c.rendered.Binds fun ρ => (c' ρ).rendered) (q.render lock)
        fun ρ => (q.bind ρ).render lock := by
  simp only [render, context_bind]
  apply Tracks.bind (tracks_renderScope rfl h.bound_context .root lock)
  intro r r' hr
  apply Tracks.map (tracks_select q .root)
  rintro s _ ⟨-, rfl⟩
  exact hr

theorem identifiers_bind (ρ : Binding) (s : Select)
    : (q.bind ρ).identifiers (s.bind ρ) = (q.identifiers s).map (·.bind ρ) := by
  simp only [identifiers, isDistinct_bind]
  split
  · simp [Select.bind, List.filter_map, Function.comp_def]
  · rfl

theorem InOrder.of_mem_identifiers (h : q.InOrder) {s : Select} (hs : s ∈ q.selects) {e : Expr}
    (he : e ∈ q.identifiers s) : e.isInOrder := by
  unfold identifiers at he
  split at he
  · obtain ⟨item, hitem, rfl⟩ := List.mem_map.mp he
    have hexpr : item.expr ∈ s.items.map (·.expr) :=
      List.mem_map_of_mem (List.mem_of_mem_filter hitem)
    apply h.exprs
    refine List.mem_flatMap.mpr ⟨s, hs, ?_⟩
    simp only [Select.exprs, List.mem_append, hexpr, true_or]
  · cases he

theorem InOrder.tracks_directCount? (h : q.InOrder) {s : Select} (hs : s ∈ q.selects)
    : Tracks (Optionwise (Fragment.Binds q.profile)) (q.directCount? s)
        fun ρ => (q.bind ρ).directCount? (s.bind ρ) := by
  have hexprs : ∀ e ∈ q.identifiers s, e.isInOrder := fun e he => h.of_mem_identifiers hs he
  simp only [directCount?, identifiers_bind, profile_bind, Select.range_bind,
    Select.isEmpty_groupBy_bind]
  split
  · exact .ok .none
  split
  · exact .ok (.some (.ofTokens _))
  generalize q.identifiers s = es at hexprs
  cases es with
  | nil => exact .ok (.some (.ofTokens _))
  | cons e es =>
    cases es with
    | nil =>
      have hcount : (Expr.aggregate .count e true).isInOrder := by
        simpa only [Expr.isInOrder] using hexprs e List.mem_cons_self
      exact (h.tracks_fragment true hcount).map fun _ _ hf => .some hf
    | cons e' es =>
      cases q.profile.clauses.distinctCountColumnSeparator with
      | none => exact .ok .none
      | some separator =>
        apply Tracks.map (R := Listwise Rendered.Binds)
        · apply Tracks.mapM
          intro e he
          simp only [Expr.sql_eq]
          exact (h.tracks_fragment true (hexprs e he)).map fun _ _ hf => hf
        · intro rs rs' hrs
          have hlist := Rendered.Binds.intercalate hrs (" " ++ separator ++ " ")
          exact .some (.ofRendered (hlist.around "COUNT(DISTINCT " ")"))

theorem InOrder.tracks_renderCount (h : q.InOrder)
    : Tracks (fun c c' => c.rendered.Binds fun ρ => (c' ρ).rendered) q.renderCount
        fun ρ => (q.bind ρ).renderCount := by
  simp only [renderCount_eq]
  apply Tracks.bind (tracks_select q .root)
  rintro s _ ⟨hs, rfl⟩
  apply Tracks.bind (h.tracks_directCount? hs)
  intro count count' hcount
  cases hcount with
  | none =>
    apply Tracks.bind_same
    intro _
    apply Tracks.bind (h.tracks_renderUnlocked .root)
    intro r r' hr
    have hcount := hr.around "SELECT COUNT(*) FROM ("
      (")" ++ if q.profile.requirements.aliasForSubselect then " s" else "")
    simp only [← String.append_assoc] at hcount
    exact .ok hcount
  | some hcount =>
    apply Tracks.bind (h.tracks_body .root none false)
    intro body body' hbody
    have hhead := (Fragment.Binds.ofTokens [.keyword .select, .space]).append hcount
    exact .ok ((hhead.append (.ofTokens [.space])).append hbody)

/-! ## Changes of all rows -/

theorem InOrder.tracks_setClause (h : q.InOrder) {action : BulkAction}
    (haction : ∀ e ∈ action.exprs, e.isInOrder) (qualifier : Option Alias)
    : Tracks (Fragment.Binds q.profile) (action.setClause q.context qualifier)
        fun ρ => (action.bind ρ).setClause (q.bind ρ).context qualifier := by
  cases action with
  | delete => exact .ok .empty
  | update assignments =>
    simp only [BulkAction.setClause, BulkAction.bind]
    apply Tracks.map (R := Listwise (Fragment.Binds q.profile))
    · apply Tracks.mapM
      rintro ⟨column, e⟩ he
      have hmem : e ∈ assignments.map (·.2) := List.mem_map_of_mem he
      apply Tracks.map (h.tracks_fragment qualifier.isSome (haction e hmem))
      intro f f' hf
      exact .append (.ofTokens _) hf
    · intro fs fs' hfs
      exact .append (.ofTokens _) (.commaSep hfs)

theorem InOrder.tracks_aliasedBulk (h : q.InOrder) {action : BulkAction}
    (haction : ∀ e ∈ action.exprs, e.isInOrder) (id : ScopeId) (table : Table)
    : Tracks Rendered.Binds (q.aliasedBulk action id table)
        fun ρ => (q.bind ρ).aliasedBulk (action.bind ρ) id table := by
  simp only [aliasedBulk_eq]
  apply Tracks.bind_same
  intro a
  apply Tracks.bind (h.tracks_setClause haction (some a))
  intro set set' hset
  apply Tracks.map (h.tracks_source id none)
  intro source source' hsource
  simp only [hsource.tables]
  cases action with
  | delete =>
    exact ((Fragment.Binds.ofTokens _).append hset).append (.whereClause hsource.condition)
  | update assignments =>
    exact ((Fragment.Binds.ofTokens _).append hset).append (.whereClause hsource.condition)

theorem InOrder.tracks_bulkHead (h : q.InOrder) {action : BulkAction}
    (haction : ∀ e ∈ action.exprs, e.isInOrder) (table : Table)
    : Tracks (Fragment.Binds q.profile) (q.bulkHead action table)
        fun ρ => (q.bind ρ).bulkHead (action.bind ρ) table := by
  unfold bulkHead
  apply Tracks.map (h.tracks_setClause haction none)
  intro set set' hset
  cases action with
  | delete => exact .append (.ofTokens _) hset
  | update assignments => exact .append (.ofTokens _) hset

theorem keySelect_bind (p : Profile) (a : Alias) (table : Table) (key : List String) (ρ : Binding)
    (s : Select)
    : keySelect p a table key (s.bind ρ) = (keySelect p a table key s).bind ρ := by
  unfold keySelect Select.bind
  split
  · rfl
  · simp [Expr.bind]

theorem isInOrder_keySelect {s : Select} (h : ∀ e ∈ s.exprs, e.isInOrder) (p : Profile) (a : Alias)
    (table : Table) (key : List String) : ∀ e ∈ (keySelect p a table key s).exprs, e.isInOrder := by
  simp only [Select.exprs, List.forall_mem_append] at h ⊢
  obtain ⟨⟨⟨⟨-, hconditions⟩, hgroupBy⟩, hhaving⟩, -⟩ := h
  unfold keySelect
  split
  · refine ⟨⟨⟨⟨?_, hconditions⟩, hgroupBy⟩, hhaving⟩, ?_⟩
    · simp [Expr.isInOrder]
    · simp
  · refine ⟨⟨⟨⟨?_, ?_⟩, hgroupBy⟩, hhaving⟩, ?_⟩
    · simp [Expr.isInOrder]
    · exact List.forall_mem_append.mpr ⟨hconditions, by simp [Expr.isInOrder]⟩
    · simp

theorem InOrder.keySelect (h : q.InOrder) (a : Alias) (table : Table) (key : List String)
    (id : ScopeId) : (q.modifySelect id (keySelect q.profile a table key)).InOrder := by
  refine ⟨h.functions, ?_⟩
  intro e he
  obtain ⟨s', hs', he⟩ := List.mem_flatMap.mp he
  obtain ⟨i, hi⟩ := List.mem_iff_getElem?.mp hs'
  simp only [modifySelect, List.getElem?_modify] at hi
  obtain ⟨s, hs, rfl⟩ := Option.map_eq_some_iff.mp hi
  have hexprs : ∀ e ∈ s.exprs, e.isInOrder := fun e he =>
    h.exprs e (List.mem_flatMap.mpr ⟨s, List.mem_of_getElem? hs, he⟩)
  split at he
  · exact isInOrder_keySelect hexprs q.profile a table key e he
  · exact hexprs e he

theorem InOrder.tracks_keyCondition (h : q.InOrder) (id : ScopeId) (table : Table)
    (key : List String)
    : Tracks (Fragment.Binds q.profile) (q.keyCondition id table key)
        fun ρ => (q.bind ρ).keyCondition id table key := by
  have hbind : ∀ a ρ, (q.bind ρ).modifySelect id (Query.keySelect q.profile a table key)
      = (q.modifySelect id (Query.keySelect q.profile a table key)).bind ρ := by
    intro a ρ
    simp only [modifySelect, bind, modify_map_of_comm (keySelect_bind q.profile a table key ρ)]
  simp only [keyCondition_eq, profile_bind, hbind]
  apply Tracks.bind_same
  intro a
  apply Tracks.map ((h.keySelect a table key id).tracks_renderUnlocked id)
  intro r r' hr
  exact .append (.ofTokens _) (Fragment.Binds.ofRendered hr).parens

theorem hasConditions_bind (ρ : Binding) (id : ScopeId)
    : (q.bind ρ).hasConditions id = q.hasConditions id := by
  simp only [hasConditions, select?_bind]
  cases q.select? id <;> simp [Select.bind]

theorem InOrder.tracks_nestedBulk? (h : q.InOrder) {action : BulkAction}
    (haction : ∀ e ∈ action.exprs, e.isInOrder) (id : ScopeId) (table : Table) (tables : Nat)
    : Tracks (Optionwise Rendered.Binds) (q.nestedBulk? action id table tables)
        fun ρ => (q.bind ρ).nestedBulk? (action.bind ρ) id table tables := by
  simp only [nestedBulk?_eq_render, profile_bind, hasConditions_bind]
  apply Tracks.bind (h.tracks_bulkHead haction table)
  intro head head' hhead
  apply Tracks.ite
  · exact .ok (.some hhead)
  · apply Tracks.ite
    · apply Tracks.map (h.tracks_keyCondition id table table.primaryKeyColumns)
      intro condition condition' hcondition
      exact .some (Fragment.Binds.append hhead hcondition)
    · exact .ok .none

theorem InOrder.tracks_bulk? (h : q.InOrder) {action : BulkAction}
    (haction : ∀ e ∈ action.exprs, e.isInOrder) (id : ScopeId) (table : Table)
    : Tracks (Optionwise Rendered.Binds) (q.bulk? action id table)
        fun ρ => (q.bind ρ).bulk? (action.bind ρ) id table := by
  simp only [bulk?, profile_bind]
  apply Tracks.bind_same
  intro tables
  apply Tracks.ite
  · apply Tracks.map (h.tracks_aliasedBulk haction id table)
    intro r r' hr
    exact .some hr
  · exact h.tracks_nestedBulk? haction id table tables

/-! ## Placeholders and parameters -/

/--
The parameters that a statement lists are those of its placeholders, from left to right. Which
parameter a placeholder stands for is told by what the query has instead of the statement when
values are bound to its parameters.
-/
def PlacesAgree (r : Rendered) (bound : Binding → Option Rendered) : Prop :=
  (∃ t : PlacedText, t.Reads r.sql bound)
    ∧ ∀ t : PlacedText, t.Reads r.sql bound → t.names = r.params

theorem PlacesAgree.of_binds {r : Rendered} {s : Binding → Rendered} (h : r.Binds s)
    {bound : Binding → Option Rendered} (hbound : ∀ ρ, bound ρ = some (s ρ))
    : PlacesAgree r bound := by
  obtain ⟨t, rfl, rfl⟩ := h
  have ht : t.Reads t.rendered.sql bound := ⟨rfl, hbound⟩
  exact ⟨⟨t, ht⟩, fun u hu => hu.names_eq ht⟩

theorem InOrder.placesAgree_render (h : q.InOrder) {lock : LockRequest} {c : CompiledSelect}
    (hc : q.render lock = .ok c)
    : PlacesAgree c.rendered fun ρ => ((q.bind ρ).render lock).toOption.map (·.rendered) := by
  obtain ⟨c', hc', hbinds⟩ := h.tracks_render lock c hc
  exact .of_binds hbinds fun ρ => congrArg (·.toOption.map (·.rendered)) (hc' ρ)

theorem InOrder.placesAgree_renderCount (h : q.InOrder) {c : CompiledSelect}
    (hc : q.renderCount = .ok c)
    : PlacesAgree c.rendered fun ρ => (q.bind ρ).renderCount.toOption.map (·.rendered) := by
  obtain ⟨c', hc', hbinds⟩ := h.tracks_renderCount c hc
  exact .of_binds hbinds fun ρ => congrArg (·.toOption.map (·.rendered)) (hc' ρ)

theorem InOrder.placesAgree_bulk? (h : q.InOrder) {action : BulkAction}
    (haction : ∀ e ∈ action.exprs, e.isInOrder) {id : ScopeId} {table : Table} {r : Rendered}
    (hr : q.bulk? action id table = .ok (some r))
    : PlacesAgree r fun ρ => ((q.bind ρ).bulk? (action.bind ρ) id table).toOption.join := by
  obtain ⟨r', hr', hbinds⟩ := h.tracks_bulk? haction id table (some r) hr
  cases hbinds with
  | some hbinds => exact .of_binds hbinds fun ρ => congrArg (·.toOption.join) (hr' ρ)

theorem places_agree (v : Vendor) (q : Query) (hprofile : q.profile = v.profile)
    (hexprs : ∀ e ∈ q.exprs, e.isInOrder)
    : (∀ lock c, q.render lock = .ok c →
          PlacesAgree c.rendered fun ρ => ((q.bind ρ).render lock).toOption.map (·.rendered))
        ∧ (∀ c, q.renderCount = .ok c →
            PlacesAgree c.rendered fun ρ => (q.bind ρ).renderCount.toOption.map (·.rendered))
        ∧ (∀ action id table r, (∀ e ∈ action.exprs, e.isInOrder) →
            q.bulk? action id table = .ok (some r) →
            PlacesAgree r fun ρ => ((q.bind ρ).bulk? (action.bind ρ) id table).toOption.join)
        ∧ (∀ lock, q.emitted.render lock = q.render lock)
        ∧ q.emitted.renderCount = q.renderCount
        ∧ (∀ action id table, q.emitted.bulk? action id table = q.bulk? action id table)
        ∧ (∀ s count, q.select .root = .ok s → q.directCount? s = .ok (some count) →
            q.counted.renderCount = q.renderCount) := by
  have h : q.InOrder := ⟨hprofile ▸ v.functions_inOrder, hexprs⟩
  refine ⟨fun _ _ => h.placesAgree_render, fun _ => h.placesAgree_renderCount, ?_,
    fun _ => render_emitted _, renderCount_emitted, bulk?_emitted, ?_⟩
  · intro action id table r haction
    exact h.placesAgree_bulk? haction
  · intro s count hs hcount
    exact renderCount_counted hs hcount

-- The rows are ordered before they are numbered, so the select is wrapped in others, and one of its
-- conditions has a select of its own. An update gives new values before it has conditions.
theorem places_agree_nested
    : let build : Compile Query := do
        let q := Query.new Vendor.oracle.profile
        let (t, q) ← q.fromTable .root { name := "T" }
        let (inner, q) ← q.subselect .root
        let (s, q) ← q.fromTable inner { name := "S" }
        let (_, q) ← q.addItem inner { expr := .column s "ID" }
        let q ← q.addCondition inner (.binary .eq (.column s "NAME") (.param "name"))
        let (_, q) ← q.addItem .root { expr := .binary .add (.column t "A") (.param "shift") }
        let q ← q.addCondition .root (.inSelect (.column t "S") inner false)
        let q ← q.addCondition .root (.binary .gt (.column t "A") (.param "floor"))
        let q ← q.addOrder .root { expr := .binary .mul (.column t "A") (.param "weight") } false
        q.setRange .root { start := 2, stop := some 5 }
      let action : BulkAction := .update [("A", .param "value")]
      ∃ q c r, build = .ok q ∧ q.profile = Vendor.oracle.profile ∧ (∀ e ∈ q.exprs, e.isInOrder)
        ∧ q.render .unlocked = .ok c ∧ c.params = ["shift", "name", "floor", "weight"]
        ∧ PlacesAgree c.rendered (fun ρ => ((q.bind ρ).render .unlocked).toOption.map (·.rendered))
        ∧ (∀ e ∈ action.exprs, e.isInOrder) ∧ q.bulk? action .root { name := "T" } = .ok (some r)
        ∧ r.params = ["value", "name", "floor"]
        ∧ PlacesAgree r fun ρ =>
            ((q.bind ρ).bulk? (action.bind ρ) .root { name := "T" }).toOption.join := by
  intro build action
  have haction : ∀ e ∈ action.exprs, e.isInOrder := List.all_eq_true.mp rfl
  refine ⟨_, _, _, rfl, rfl, List.all_eq_true.mp rfl, rfl, rfl, ?_, haction, rfl, rfl, ?_⟩
  · exact (places_agree .oracle _ rfl (List.all_eq_true.mp rfl)).1 _ _ rfl
  · exact (places_agree .oracle _ rfl (List.all_eq_true.mp rfl)).2.2.1 _ _ _ _ haction rfl

end Query

end SqlDialect
