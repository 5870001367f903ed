import SqlDialect.Proofs.Join.Confinement
import SqlDialect.Proofs.Query.Branches

/-!
This module contains runs of a query. A run is a sequence of calls, any of which may fail and then
leaves the query as it was. A call nests a select, or is a call of the join graph, or edits the
select of one scope, and everything that is said about all runs is proved of these three steps.
-/

namespace SqlDialect

inductive QueryCall where
  | subselect (parent : ScopeId)
  | declareVariable (id : ScopeId) (variableName : String)
  | fromTable (id : ScopeId) (table : Table)
  | aliasAt (id : ScopeId) (table : Table) (path : JoinPath)
  | join (id : ScopeId) (path : JoinPath) (rel : Relation)
  | outerJoin (id : ScopeId) (path : JoinPath) (rel : Relation)
  | crossJoin (id : ScopeId) (source : Table) (path : JoinPath) (target : Table)
      (variableName : String)
  | beginOr (id : ScopeId)
  | nextOrBranch (id : ScopeId)
  | endOr (id : ScopeId)
  | addItem (id : ScopeId) (item : SelectItem)
  | addCondition (id : ScopeId) (condition : Expr)
  | addHaving (id : ScopeId) (condition : Expr)
  | addGrouping (id : ScopeId) (expr : Expr)
  | addOrder (id : ScopeId) (item : OrderItem) (selected : Bool)
  | setRange (id : ScopeId) (range : RowRange)
  | setDistinct (id : ScopeId) (distinct : Bool)
  | setNotDistinct (id : ScopeId) (notDistinct : Bool)
  | setAutoDistinct (id : ScopeId) (autoDistinct : Bool)
  | setAggregate (id : ScopeId) (aggregate : Bool)

namespace QueryCall

def scope : QueryCall → ScopeId
  | .subselect parent => parent
  | .declareVariable id _ | .fromTable id _ | .aliasAt id _ _ | .join id _ _ | .outerJoin id _ _
  | .crossJoin id _ _ _ _ | .beginOr id | .nextOrBranch id | .endOr id | .addItem id _
  | .addCondition id _ | .addHaving id _ | .addGrouping id _ | .addOrder id _ _ | .setRange id _
  | .setDistinct id _ | .setNotDistinct id _ | .setAutoDistinct id _ | .setAggregate id _ => id

def joins? : QueryCall → Option JoinCall
  | .declareVariable id v => some (.declareVariable id v)
  | .fromTable id table => some (.aliasFor id table .root true)
  | .aliasAt id table path => some (.aliasFor id table path true)
  | .join id path rel => some (.join id path rel .inner)
  | .outerJoin id path rel => some (.join id path rel .outer)
  | .crossJoin id source path target v => some (.crossJoin id source path target v)
  | .beginOr id => some (.beginOr id)
  | .nextOrBranch id => some (.nextOrBranch id)
  | .endOr id => some (.endOr id)
  | _ => none

def requested (call : QueryCall) : List String := (call.joins?.map (·.requested)).getD []

end QueryCall

namespace Query

def perform (q : Query) : QueryCall → Compile Query
  | .subselect parent => Prod.snd <$> q.subselect parent
  | .declareVariable id v => q.declareVariable id v
  | .fromTable id table => Prod.snd <$> q.fromTable id table
  | .aliasAt id table path => Prod.snd <$> q.aliasAt id table path
  | .join id path rel => Prod.snd <$> q.join id path rel
  | .outerJoin id path rel => Prod.snd <$> q.outerJoin id path rel
  | .crossJoin id source path target v => Prod.snd <$> q.crossJoin id source path target v
  | .beginOr id => return { q with graph := ← q.graph.beginOr id }
  | .nextOrBranch id => return { q with graph := ← q.graph.nextOrBranch id }
  | .endOr id => return { q with graph := ← q.graph.endOr id }
  | .addItem id item => Prod.snd <$> q.addItem id item
  | .addCondition id condition => q.addCondition id condition
  | .addHaving id condition => q.addHaving id condition
  | .addGrouping id expr => q.addGrouping id expr
  | .addOrder id item selected => q.addOrder id item selected
  | .setRange id range => q.setRange id range
  | .setDistinct id distinct => q.setDistinct id distinct
  | .setNotDistinct id notDistinct => q.setNotDistinct id notDistinct
  | .setAutoDistinct id autoDistinct => q.setAutoDistinct id autoDistinct
  | .setAggregate id aggregate => q.setAggregate id aggregate

def after (q : Query) (call : QueryCall) : Query :=
  match q.perform call with
  | .ok q => q
  | .error _ => q

def afterAll (q : Query) (calls : List QueryCall) : Query := calls.foldl after q

inductive Step (q : Query) : QueryCall → Query → Prop where
  | nest {parent inner : ScopeId} {graph : JoinGraph}
      (h : q.graph.subselect parent = .ok (inner, graph)) :
      Step q (.subselect parent) { q with graph, selects := q.selects ++ [{}] }
  | joins {call : QueryCall} {joins : JoinCall} {graph : JoinGraph} (hjoins : call.joins? = joins)
      (h : q.graph.perform joins = .ok graph) : Step q call { q with graph }
  | edit {call : QueryCall} (f : Select → Select) : Step q call (q.modifySelect call.scope f)

variable {q q' : Query}

theorem edit_eq_ok {id : ScopeId} {f : Select → Select} (h : q.edit id f = .ok q')
    : q' = q.modifySelect id f := by
  obtain ⟨_, _, h⟩ := Compile.bind_eq_ok_iff.mp h
  cases h
  rfl

theorem snd_withGraph {α : Type} (q : Query) (f : JoinGraph → Compile (α × JoinGraph))
    : Prod.snd <$> q.withGraph f = (fun graph => { q with graph }) <$> Prod.snd <$> f q.graph := by
  unfold withGraph
  cases f q.graph <;> rfl

theorem perform_of_joins? {call : QueryCall} {joins : JoinCall} (h : call.joins? = some joins)
    : q.perform call = (fun graph => { q with graph }) <$> q.graph.perform joins := by
  cases call with
  | fromTable id table | aliasAt id table path =>
    cases h
    simp only [perform, fromTable, aliasAt, snd_withGraph, JoinGraph.perform, JoinGraph.aliasFor,
      if_true]
    cases q.graph.requireAlias id table _ <;> rfl
  | join | outerJoin | crossJoin =>
    cases h
    exact snd_withGraph q _
  | declareVariable id v =>
    cases h
    simp only [perform, declareVariable, JoinGraph.perform]
    cases q.graph.declareVariable id v <;> rfl
  | beginOr | nextOrBranch | endOr =>
    cases h
    rfl
  | _ => cases h

theorem addItem_eq_ok {id : ScopeId} {item : SelectItem}
    (h : Prod.snd <$> q.addItem id item = .ok q') : ∃ f, q' = q.modifySelect id f := by
  unfold addItem at h
  cases hs : q.select id with
  | error e =>
    rw [hs] at h
    cases h
  | ok s =>
    rw [hs] at h
    cases h
    exact ⟨_, rfl⟩

theorem select?_modifySelect (q : Query) (i j : ScopeId) (f : Select → Select)
    : (q.modifySelect i f).select? j = if i = j then (q.select? j).map f else q.select? j := by
  unfold modifySelect select?
  rw [List.getElem?_modify]
  by_cases h : i = j
  · simp [h]
  · have hindex : i.index ≠ j.index := by
      intro hij
      exact h (by cases i; cases j; simpa using hij)
    simp [h, hindex]

theorem modifySelect_modifySelect (q : Query) (id : ScopeId) (f g : Select → Select)
    : (q.modifySelect id f).modifySelect id g = q.modifySelect id (g ∘ f) := by
  simp only [modifySelect, List.modify_modify_eq]

theorem addOrder_eq_ok {id : ScopeId} {item : OrderItem} {selected : Bool}
    (h : q.addOrder id item selected = .ok q') : ∃ f, q' = q.modifySelect id f := by
  unfold addOrder at h
  cases selected with
  | false => exact ⟨_, edit_eq_ok h⟩
  | true =>
    obtain ⟨q₁, hitem, h⟩ := Compile.bind_eq_ok_iff.mp h
    obtain ⟨f, rfl⟩ := addItem_eq_ok hitem
    rw [edit_eq_ok h, modifySelect_modifySelect]
    exact ⟨_, rfl⟩

theorem Step.of_perform {call : QueryCall} (h : q.perform call = .ok q') : q.Step call q' := by
  cases hjoins : call.joins? with
  | some joins =>
    rw [perform_of_joins? hjoins] at h
    obtain ⟨graph, hgraph, rfl⟩ := Compile.map_eq_ok_iff.mp h
    exact .joins hjoins hgraph
  | none =>
    cases call with
    | subselect parent =>
      simp only [perform, Query.subselect, Compile.map_eq_ok_iff, Compile.bind_eq_ok_iff] at h
      obtain ⟨_, ⟨_, _, _, _, ⟨inner, graph⟩, hgraph, h⟩, rfl⟩ := h
      cases h
      exact .nest hgraph
    | addItem id item =>
      obtain ⟨f, rfl⟩ := addItem_eq_ok h
      exact .edit f
    | addOrder id item selected =>
      obtain ⟨f, rfl⟩ := addOrder_eq_ok h
      exact .edit f
    | addHaving id condition =>
      obtain ⟨_, _, h⟩ := Compile.bind_eq_ok_iff.mp h
      rw [edit_eq_ok h]
      exact .edit _
    | addCondition | addGrouping | setRange | setDistinct | setNotDistinct | setAutoDistinct
    | setAggregate =>
      rw [edit_eq_ok h]
      exact .edit _
    | _ => cases hjoins

theorem step_after (q : Query) (call : QueryCall) : q.Step call (q.after call) := by
  unfold after
  split
  · next h => exact .of_perform h
  · -- A call that fails edits its select without changing it.
    have hsame : q.modifySelect call.scope id = q := by simp [modifySelect]
    have hstep : q.Step call (q.modifySelect call.scope id) := .edit id
    rw [hsame] at hstep
    exact hstep

theorem afterAll_preserves {P : Query → Prop} (calls : List QueryCall)
    (hstep : ∀ {q call q'}, Step q call q' → P q → P q') (h : P q) : P (q.afterAll calls) := by
  induction calls generalizing q with
  | nil => exact h
  | cons call calls ih =>
    apply ih
    exact hstep (q.step_after call) h

/-! ## What all runs keep -/

theorem profile_of_step {call : QueryCall} (h : q.Step call q') : q'.profile = q.profile := by
  cases h <;> rfl

theorem profile_afterAll (q : Query) (calls : List QueryCall)
    : (q.afterAll calls).profile = q.profile :=
  afterAll_preserves calls (P := fun q' => q'.profile = q.profile)
    (fun hstep h => (profile_of_step hstep).trans h) rfl

theorem exists_joins_afterAll (p : Profile) (calls : List QueryCall)
    : ∃ joins, ((new p).afterAll calls).graph = (JoinGraph.new p.joinSyntax).afterAll joins := by
  apply afterAll_preserves calls
    (P := fun q => ∃ joins, q.graph = (JoinGraph.new p.joinSyntax).afterAll joins)
  · intro q call q' hstep ⟨joins, hjoins⟩
    have happend : ∀ {next graph}, q.graph.perform next = .ok graph →
        graph = (JoinGraph.new p.joinSyntax).afterAll (joins ++ [next]) := by
      intro next graph h
      rw [JoinGraph.afterAll, List.foldl_append]
      change graph = ((JoinGraph.new p.joinSyntax).afterAll joins).after next
      rw [← hjoins]
      exact (JoinGraph.after_of_perform h).symm
    cases hstep with
    | nest h => exact ⟨_, happend (by rw [JoinGraph.perform, h]; rfl)⟩
    | joins _ h => exact ⟨_, happend h⟩
    | edit f => exact ⟨joins, hjoins⟩
  · exact ⟨[], rfl⟩

theorem joins_ne_subselect {call : QueryCall} {joins : JoinCall} (h : call.joins? = some joins)
    (parent : ScopeId) : joins ≠ .subselect parent := by
  rintro rfl
  cases call <;> cases h

theorem scope_of_joins? {call : QueryCall} {joins : JoinCall} (h : call.joins? = some joins)
    : joins.scope = call.scope := by
  cases call <;> cases h <;> rfl

theorem length_selects_of_step {call : QueryCall} (hstep : q.Step call q')
    (h : q.selects.length = q.graph.scopes.length)
    : q'.selects.length = q'.graph.scopes.length := by
  cases hstep with
  | nest hnest =>
    obtain ⟨_, _, hnest⟩ := Compile.bind_eq_ok_iff.mp hnest
    cases hnest
    simp [h]
  | joins hjoins hperform =>
    have hconfined := JoinGraph.Confined.of_perform (joins_ne_subselect hjoins) hperform
    exact h.trans hconfined.length_eq.symm
  | edit f =>
    simpa [modifySelect] using h

theorem length_selects_afterAll (p : Profile) (calls : List QueryCall)
    : ((new p).afterAll calls).selects.length = ((new p).afterAll calls).graph.scopes.length :=
  afterAll_preserves calls length_selects_of_step rfl

theorem selects_ne_nil_afterAll (p : Profile) (calls : List QueryCall)
    : ((new p).afterAll calls).selects ≠ [] := by
  apply afterAll_preserves calls (P := fun q => q.selects ≠ [])
  · intro q call q' hstep h
    cases hstep with
    | nest => simp
    | joins => exact h
    | edit f => simpa [modifySelect, List.modify_eq_nil_iff] using h
  · simp [new]

/-! ## ORs -/

end Query

namespace QueryM

variable {α β : Type}

def Runs (x : QueryM α) : Prop := ∀ q, ∃ calls, (x.outcome q).2 = q.afterAll calls

theorem Runs.pure (a : α) : (Pure.pure a : QueryM α).Runs := fun _ => ⟨[], rfl⟩

theorem Runs.throw (e : CompileError) : (MonadExcept.throw e : QueryM α).Runs := fun _ => ⟨[], rfl⟩

theorem Runs.bind {x : QueryM α} {f : α → QueryM β} (hx : x.Runs) (hf : ∀ a, (f a).Runs)
    : (x >>= f).Runs := by
  intro q
  cases h : (x >>= f).outcome q with
  | mk r q' =>
    obtain ⟨calls, hcalls⟩ := hx q
    obtain ⟨_, hfail, _⟩ | ⟨a, q₁, hfirst, hrest⟩ := outcome_bind_eq h
    · rw [hfail] at hcalls
      exact ⟨calls, hcalls⟩
    · rw [hfirst] at hcalls
      obtain ⟨others, hothers⟩ := hf a q₁
      rw [hrest] at hothers
      refine ⟨calls ++ others, ?_⟩
      rw [Query.afterAll, List.foldl_append]
      change q' = (q.afterAll calls).afterAll others
      rw [← hcalls]
      exact hothers

theorem Runs.changeJoins {call : QueryCall} {joins : JoinCall} (h : call.joins? = joins)
    : (QueryM.changeJoins (·.perform joins)).Runs := by
  intro q
  refine ⟨[call], ?_⟩
  change _ = q.after call
  rw [outcome_changeJoins, Query.after, Query.perform_of_joins? h]
  cases q.graph.perform joins <;> rfl

theorem Runs.mapM {γ : Type} {as : List γ} {f : γ → QueryM α} (hf : ∀ a ∈ as, (f a).Runs)
    : (as.mapM f).Runs := by
  induction as with
  | nil => exact .pure []
  | cons a as ih =>
    rw [List.mapM_cons]
    apply (hf a List.mem_cons_self).bind
    intro b
    apply (ih fun a ha => hf a (List.mem_cons_of_mem _ ha)).bind
    intro bs
    exact .pure _

theorem Runs.orJoins (id : ScopeId) {branches : List (QueryM (Expr × α))}
    (h : ∀ branch ∈ branches, branch.Runs) : (Query.orJoins id branches).Runs := by
  have hbegin : (QueryM.changeJoins (·.beginOr id)).Runs :=
    .changeJoins (show (QueryCall.beginOr id).joins? = some (.beginOr id) from rfl)
  have hnext : (QueryM.changeJoins (·.nextOrBranch id)).Runs :=
    .changeJoins (show (QueryCall.nextOrBranch id).joins? = some (.nextOrBranch id) from rfl)
  have hend : (QueryM.changeJoins (·.endOr id)).Runs :=
    .changeJoins (show (QueryCall.endOr id).joins? = some (.endOr id) from rfl)
  have hbranches : (Query.runBranches id branches).Runs := by
    cases branches with
    | nil => exact .pure []
    | cons branch branches =>
      apply (h branch List.mem_cons_self).bind
      intro first
      refine Runs.bind (.mapM fun branch hmem => ?_) fun others => .pure _
      exact hnext.bind fun _ => h branch (List.mem_cons_of_mem _ hmem)
  refine hbegin.bind fun _ => hbranches.bind fun results => hend.bind fun _ => ?_
  cases results with
  | nil => exact .throw _
  | cons first others => exact .pure _

end QueryM
end SqlDialect
