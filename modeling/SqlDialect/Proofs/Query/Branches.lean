import SqlDialect.Proofs.Join.Conditions
import SqlDialect.Proofs.Join.Requests
import SqlDialect.Proofs.Query.Places
import SqlDialect.Query.Branches

/-!
This module contains the theory of ORs whose branches make joins of their own. Such an OR is closed
when it returns, with or without a result, unless one of its branches fails. From then on joins are
recorded at once, and their conditions are part of the text of the select.
-/

namespace SqlDialect

/-! ## Series of changes -/

namespace QueryM

variable {α β : Type} {q q' : Query}

def outcome (x : QueryM α) (q : Query) : Compile α × Query := x.run.run q

theorem outcome_bind_eq {x : QueryM α} {f : α → QueryM β} {r : Compile β}
    (h : (x >>= f).outcome q = (r, q'))
    : (∃ e, x.outcome q = (.error e, q') ∧ r = .error e)
        ∨ ∃ a q₁, x.outcome q = (.ok a, q₁) ∧ (f a).outcome q₁ = (r, q') := by
  change (ExceptT.bindCont f (x.outcome q).1).run (x.outcome q).2 = _ at h
  cases hx : x.outcome q with
  | mk result q₁ =>
    rw [hx] at h
    cases result with
    | error e =>
      cases h
      exact .inl ⟨e, rfl, rfl⟩
    | ok a => exact .inr ⟨a, q₁, rfl, h⟩

theorem outcome_change (f : Query → Compile (α × Query)) (q : Query)
    : (change f).outcome q =
        match f q with
        | .ok (a, q) => (.ok a, q)
        | .error e => (.error e, q) := rfl

theorem outcome_changeJoins (f : JoinGraph → Compile JoinGraph) (q : Query)
    : (changeJoins f).outcome q =
        match f q.graph with
        | .ok graph => (.ok (), { q with graph })
        | .error e => (.error e, q) := by
  rw [changeJoins, outcome_change]
  cases f q.graph <;> rfl

theorem outcome_changeJoins_bind_eq {f : JoinGraph → Compile JoinGraph} {k : Unit → QueryM β}
    {r : Compile β} (h : (changeJoins f >>= k).outcome q = (r, q'))
    : (∃ e, f q.graph = .error e ∧ q' = q)
        ∨ ∃ graph, f q.graph = .ok graph ∧ (k ()).outcome { q with graph } = (r, q') := by
  cases hf : f q.graph with
  | error e =>
    obtain ⟨_, hchange, _⟩ | ⟨_, _, hchange, _⟩ := outcome_bind_eq h
    all_goals rw [outcome_changeJoins, hf] at hchange
    · cases hchange
      exact .inl ⟨e, rfl, rfl⟩
    · cases hchange
  | ok graph =>
    obtain ⟨_, hchange, _⟩ | ⟨_, _, hchange, h⟩ := outcome_bind_eq h
    all_goals rw [outcome_changeJoins, hf] at hchange
    · cases hchange
    · cases hchange
      exact .inr ⟨graph, rfl, h⟩

end QueryM

/-! ## Branches -/

namespace JoinGraph

variable {g g' : JoinGraph} {id : ScopeId}

theorem closed_of_edit_eq_error {f : Scope → Scope} {e : CompileError}
    (h : g.edit id f = .error e) : g.Closed id := by
  intro s hs
  rw [edit, scope_eq_ok_iff.mpr hs] at h
  cases h

theorem closed_of_openBranches_eq_error {e : CompileError} (h : g.openBranches id = .error e)
    : g.Closed id := by
  intro s hs
  rw [openBranches, scope_eq_ok_iff.mpr hs, Compile.ok_bind] at h
  split at h
  · cases h
  · next hopen => exact hopen

-- Going on to the next branch and closing an OR fail for the same reason: there is none.
theorem closed_of_bind_edit_eq_error {f : OrBranches → Scope → Scope} {e : CompileError}
    (h : (g.openBranches id >>= fun o => g.edit id (f o)) = .error e) : g.Closed id := by
  cases hopen : g.openBranches id with
  | error e => exact closed_of_openBranches_eq_error hopen
  | ok o =>
    rw [hopen] at h
    exact closed_of_edit_eq_error h

theorem closed_of_endOr_eq_ok (h : g.endOr id = .ok g') : g'.Closed id := by
  obtain ⟨o, _, h⟩ := Compile.bind_eq_ok_iff.mp h
  rw [edit_eq_ok h]
  intro s hs
  rw [Option.mem_def, scope?_modifyScope, if_pos rfl] at hs
  obtain ⟨t, _, rfl⟩ := Option.map_eq_some_iff.mp hs
  rfl

end JoinGraph

namespace Query

variable {α : Type} {id : ScopeId} {q q' : Query}

/--
Whether a branch of an OR fails when its turn comes. Before the first branch the graph is changed by
`enter`, and before the others by going on to the next branch.
-/
def branchFails (id : ScopeId) :
    (enter : JoinGraph → Compile JoinGraph) → List (QueryM α) → Query → Bool
  | _, [], _ => false
  | enter, branch :: branches, q =>
    match enter q.graph with
    | .error _ => false
    | .ok graph =>
      match branch.outcome { q with graph } with
      | (.error _, _) => true
      | (.ok _, q) => branchFails id (·.nextOrBranch id) branches q

theorem closed_of_mapM_eq_error {branches : List (QueryM α)} {e : CompileError}
    (hkept : branchFails id (·.nextOrBranch id) branches q = false)
    (h : (branches.mapM fun branch => do
        QueryM.changeJoins (·.nextOrBranch id)
        branch).outcome q = (.error e, q'))
    : q'.graph.Closed id := by
  induction branches generalizing q with
  | nil => cases h
  | cons branch branches ih =>
    rw [List.mapM_cons, bind_assoc] at h
    rw [branchFails] at hkept
    obtain ⟨_, hnext, rfl⟩ | ⟨graph, hnext, h⟩ := QueryM.outcome_changeJoins_bind_eq h
    · exact JoinGraph.closed_of_bind_edit_eq_error hnext
    · rw [hnext] at hkept
      obtain ⟨_, hbranch, _⟩ | ⟨_, q₁, hbranch, h⟩ := QueryM.outcome_bind_eq h
      · simp [hbranch] at hkept
      · simp only [hbranch] at hkept
        obtain ⟨_, hothers, heq⟩ | ⟨_, _, _, h⟩ := QueryM.outcome_bind_eq h
        · cases heq
          exact ih hkept hothers
        · cases h

theorem closed_of_runBranches_eq_error {branches : List (QueryM α)} {e : CompileError}
    {graph : JoinGraph} (hbegin : q.graph.beginOr id = .ok graph)
    (hkept : branchFails id (·.beginOr id) branches q = false)
    (h : (runBranches id branches).outcome { q with graph } = (.error e, q'))
    : q'.graph.Closed id := by
  cases branches with
  | nil => cases h
  | cons branch branches =>
    rw [branchFails, hbegin] at hkept
    obtain ⟨_, hbranch, _⟩ | ⟨_, q₁, hbranch, h⟩ := QueryM.outcome_bind_eq h
    · simp [hbranch] at hkept
    · simp only [hbranch] at hkept
      obtain ⟨_, hothers, heq⟩ | ⟨_, _, _, h⟩ := QueryM.outcome_bind_eq h
      · cases heq
        exact closed_of_mapM_eq_error hkept hothers
      · cases h

theorem closed_of_orJoins {branches : List (QueryM (Expr × α))}
    (hkept : branchFails id (·.beginOr id) branches q = false)
    : ((orJoins id branches).outcome q).2.graph.Closed id := by
  cases h : (orJoins id branches).outcome q with
  | mk r q' =>
    obtain ⟨_, hbegin, rfl⟩ | ⟨graph, hbegin, h⟩ := QueryM.outcome_changeJoins_bind_eq h
    · exact JoinGraph.closed_of_edit_eq_error hbegin
    · obtain ⟨_, hrun, _⟩ | ⟨results, q₁, _, h⟩ := QueryM.outcome_bind_eq h
      · exact closed_of_runBranches_eq_error hbegin hkept hrun
      · obtain ⟨_, hend, rfl⟩ | ⟨graph, hend, h⟩ := QueryM.outcome_changeJoins_bind_eq h
        · exact JoinGraph.closed_of_bind_edit_eq_error hend
        · -- What follows does not change the query any more.
          cases results with
          | nil =>
            cases h
            exact JoinGraph.closed_of_endOr_eq_ok hend
          | cons first others =>
            cases h
            exact JoinGraph.closed_of_endOr_eq_ok hend

/-! ## The text of a select -/

def whereClause (conditions : List String) : String :=
  if conditions.isEmpty then "" else " WHERE " ++ " AND ".intercalate conditions

theorem sql_conjunction? (conditions : List Rendered)
    : (Rendered.conjunction? conditions).elim "" (" WHERE " ++ ·.sql)
        =
      whereClause (conditions.map (·.sql)) := by
  unfold Rendered.conjunction? whereClause
  cases conditions <;> simp

section

variable {p : Profile}

theorem sql_append (f g : Fragment)
    : ((f ++ g).render p).sql = (f.render p).sql ++ (g.render p).sql := by
  rw [Fragment.render_append]
  rfl

theorem sql_from (tables : String)
    : ((Fragment.ofTokens [.keyword .from_, .space, .raw tables]).render p).sql
        =
      "FROM " ++ tables := by
  change ((Fragment.ofTokens [.keyword .from_, .space]
    ++ .ofRendered ⟨tables, []⟩).render p).sql = _
  rw [sql_append, Fragment.ofRendered, Fragment.render_raw]
  rfl

theorem sql_where (c : Option Rendered)
    : ((match c with
        | some c => .ofTokens [.space, .keyword .where_, .space] ++ .ofRendered c
        | none => .empty : Fragment).render p).sql
        =
      c.elim "" (" WHERE " ++ ·.sql) := by
  cases c with
  | none => rfl
  | some c =>
    rw [sql_append, Fragment.ofRendered, Fragment.render_raw]
    rfl

end

theorem source_eq_ok {ctx : RenderContext} {hint : Option String} {source : SelectSource}
    (h : q.source id ctx hint = .ok source)
    : ∃ clause conditions, q.graph.fromClause id q.profile hint = .ok clause
        ∧ clause.conditions ⊆ conditions ∧ source.tables = clause.sql
        ∧ source.condition.elim "" (" WHERE " ++ ·.sql) = whereClause conditions := by
  simp only [Query.source, Compile.bind_eq_ok_iff] at h
  obtain ⟨s, _, clause, hclause, explicit, _, h⟩ := h
  cases h
  refine ⟨clause, _, hclause, ?_, rfl, sql_conjunction? _⟩
  intro t ht
  simp [ht]

theorem sql_body {ctx : RenderContext} {hint : Option String} {ordered : Bool} {f : Fragment}
    (h : q.body id ctx hint ordered = .ok f) (p : Profile)
    : ∃ clause conditions closing, q.graph.fromClause id q.profile hint = .ok clause
        ∧ clause.conditions ⊆ conditions
        ∧ (f.render p).sql = "FROM " ++ clause.sql ++ whereClause conditions ++ closing := by
  simp only [body, Compile.bind_eq_ok_iff] at h
  obtain ⟨s, _, source, hsource, groupBy, _, having_, _, h⟩ := h
  obtain ⟨clause, conditions, hclause, hsub, htables, hcondition⟩ := source_eq_ok hsource
  have hrest : ∃ orderBy : Fragment, f = .ofTokens [.keyword .from_, .space, .raw source.tables]
      ++ (match source.condition with
        | some c => .ofTokens [.space, .keyword .where_, .space] ++ .ofRendered c
        | none => .empty)
      ++ groupBy ++ having_ ++ orderBy := by
    cases ordered with
    | false =>
      cases h
      exact ⟨.empty, rfl⟩
    | true =>
      obtain ⟨orderBy, _, h⟩ := Compile.bind_eq_ok_iff.mp h
      cases h
      exact ⟨orderBy, rfl⟩
  obtain ⟨orderBy, rfl⟩ := hrest
  refine ⟨clause, conditions, ((groupBy ++ having_ ++ orderBy).render p).sql, hclause, hsub, ?_⟩
  simp only [sql_append, sql_where, sql_from, hcondition, htables, String.append_assoc]

theorem occurs_selectText (p : Profile) (range : RowRange) (shape : SelectShape)
    (lockClause : Option String) (items body : Fragment)
    : Text.Occurs (body.render p).sql (selectText p range shape lockClause items body).sql := by
  obtain ⟨before, after, hwrap⟩ := wrap_eq_append p.paging range shape
  simp only [selectText, hwrap]
  apply Text.Occurs.append_right
  apply Text.Occurs.append_left
  unfold selectFragment
  rw [sql_append, sql_append]
  apply Text.Occurs.append_right
  apply Text.Occurs.append_left
  exact .refl _

theorem sql_renderScope {lock : LockRequest} {ctx : RenderContext} {r : Rendered}
    (h : q.renderScope id lock ctx = .ok r)
    : ∃ hint clause conditions opening closing, q.graph.fromClause id q.profile hint = .ok clause
        ∧ clause.conditions ⊆ conditions
        ∧ r.sql = opening ++ "FROM " ++ clause.sql ++ whereClause conditions ++ closing := by
  rw [renderScope_eq] at h
  obtain ⟨s, _, h⟩ := Compile.bind_eq_ok_iff.mp h
  split at h
  · cases h
  · simp only [Compile.bind_eq_ok_iff] at h
    obtain ⟨lockClause, _, tables, _, items, _, body, hbody, h⟩ := h
    cases h
    obtain ⟨clause, conditions, closing, hclause, hsub, hsql⟩ := sql_body hbody q.profile
    obtain ⟨before, after, hselect⟩ :=
      occurs_selectText q.profile s.range (q.shape id s) lockClause items body
    refine ⟨_, clause, conditions, before, closing ++ after, hclause, hsub, ?_⟩
    rw [hselect, hsql]
    simp only [String.append_assoc]

/--
A statement that has a condition on its rows in FROM or in WHERE.
-/
def Restricts (condition sql : String) : Prop :=
  ∃ opening tables conditions closing,
    sql = opening ++ "FROM " ++ tables ++ whereClause conditions ++ closing
      ∧ (condition ∈ conditions ∨ Text.Occurs condition tables)

theorem restricts_of_renderScope {lock : LockRequest} {ctx : RenderContext} {r : Rendered}
    {s : Scope} {e : JoinEdge} (hs : q.graph.scope? id = some s)
    (h : q.renderScope id lock ctx = .ok r) (he : e ∈ s.edges) (hcross : e.kind ≠ .cross)
    : ∃ condition, s.condition q.profile e = .ok condition ∧ Restricts condition r.sql := by
  obtain ⟨hint, clause, conditions, opening, closing, hclause, hsub, hsql⟩ := sql_renderScope h
  obtain ⟨condition, hcondition, hplace⟩ := JoinGraph.written_of_fromClause hs hclause he hcross
  refine ⟨condition, hcondition, opening, clause.sql, conditions, closing, hsql, ?_⟩
  exact hplace.imp_left fun hmem => hsub hmem

/--
When no branch fails, an OR is closed when it returns, with or without a result. A join that is
asked for afterwards is then recorded at once, and its condition stands in the text of the select.
-/
theorem orJoins_closes {α : Type} (id : ScopeId) (branches : List (QueryM (Expr × α))) (q : Query)
    (hkept : branchFails id (·.beginOr id) branches q = false)
    : let q' := ((orJoins id branches).outcome q).2
      q'.graph.Closed id
        ∧ ∀ (before calls : List JoinCall) (call : JoinCall) (a b : Alias),
            let g := q'.graph.afterAll before
            let final := g.afterAll (call :: calls)
            (∀ c ∈ before, id ∉ c.opened) → (∀ c ∈ calls, id ∉ c.cleared) →
            g.Joining id a b call →
              ∃ s, final.scope? id = some s ∧ ∃ e ∈ s.edges, e.Joins a b
                ∧ (¬ g.Joined id a b → call.Requests e)
                ∧ (e.kind ≠ .cross → ∀ (later : Query) (lock : LockRequest) (ctx : RenderContext)
                    (r : Rendered), later.graph = final → later.renderScope id lock ctx = .ok r →
                      ∃ condition, s.condition later.profile e = .ok condition
                        ∧ Restricts condition r.sql) := by
  intro q'
  have hclosed : q'.graph.Closed id := closed_of_orJoins hkept
  refine ⟨hclosed, ?_⟩
  intro before calls call a b g final hopened hcleared hcall
  obtain ⟨s, hs, e, he, hjoins, hrequests⟩ :=
    JoinGraph.exists_edge_of_joining hcall (hclosed.afterAll hopened) hcleared
  refine ⟨s, hs, e, he, hjoins, hrequests, ?_⟩
  intro hcross later lock ctx r hgraph hr
  have hs' : later.graph.scope? id = some s := by
    rw [hgraph]
    exact hs
  exact restricts_of_renderScope hs' hr he hcross

-- One branch joins a table, the other one does nothing, and then another table is joined.
theorem orJoins_closes_branches
    : let toC : ForeignKey :=
        { columns := ["C_ID"], referencedTable := "C", primaryKeyColumns := ["ID"] }
      let toA : ForeignKey :=
        { columns := ["A_ID"], referencedTable := "A", primaryKeyColumns := ["ID"] }
      let c : Relation :=
        { name := "c", source := { name := "O" }, target := { name := "C" }, foreignKey := toC }
      let a : Relation :=
        { name := "a", source := { name := "O" }, target := { name := "A" }, foreignKey := toA }
      let branches : List (QueryM (Expr × Unit)) :=
        [do
          let t ← QueryM.change (·.join .root .root c)
          return (.isNull (.column t.ref "ID") false, ()),
        return (.literal (.bool true), ())]
      let q := Query.new Vendor.generic.profile
      let q' := ((orJoins .root branches).outcome q).2
      let call : JoinCall := .join .root .root a .inner
      branchFails .root (·.beginOr .root) branches q = false
        ∧ q'.graph.Joining .root ⟨0⟩ ⟨2⟩ call
        ∧ ∃ s, (q'.graph.after call).scope? .root = some s
            ∧ ∃ e ∈ s.edges, e.Joins ⟨0⟩ ⟨2⟩
              ∧ (¬ q'.graph.Joined .root ⟨0⟩ ⟨2⟩ → call.Requests e) := by
  intro toC toA c a branches q q' call
  have hkept : branchFails .root (·.beginOr .root) branches q = false := by decide +kernel
  have hcall : q'.graph.Joining .root ⟨0⟩ ⟨2⟩ call := ⟨rfl, ⟨_, rfl⟩, _, _, rfl⟩
  obtain ⟨_, hjoins⟩ := orJoins_closes .root branches q hkept
  obtain ⟨s, hs, e, he, hjoins, hrequests, _⟩ := hjoins [] [] call ⟨0⟩ ⟨2⟩ (by simp) (by simp) hcall
  exact ⟨hkept, hcall, s, hs, e, he, hjoins, hrequests⟩

-- The only branch fails. The OR stays open, and the text has no condition for the join that is
-- asked for afterwards.
theorem orJoins_left_open
    : let key : ForeignKey :=
        { columns := ["C_ID"], referencedTable := "C", primaryKeyColumns := ["ID"] }
      let rel : Relation :=
        { name := "c", source := { name := "O" }, target := { name := "C" }, foreignKey := key }
      let branches : List (QueryM (Expr × Unit)) := [throw (.aliasing .noBranches)]
      let call : JoinCall := .join .root .root rel .inner
      let q := Query.new Vendor.generic.profile
      let q' := ((orJoins .root branches).outcome q).2
      let later := { q' with
        graph := q'.graph.after call
        selects := [{ items := [{ expr := .column ⟨0⟩ "ID" }] }] }
      q.graph.Closed .root ∧ ¬ q'.graph.Closed .root ∧ q'.graph.Joining .root ⟨0⟩ ⟨1⟩ call
        ∧ ¬ later.graph.Joined .root ⟨0⟩ ⟨1⟩
        ∧ later.renderUnlocked .root = .ok ⟨"SELECT t0.ID FROM O t0, C t1", []⟩ := by
  intro key rel branches call q q' later
  have hcall : q'.graph.Joining .root ⟨0⟩ ⟨1⟩ call := ⟨rfl, ⟨_, rfl⟩, _, _, rfl⟩
  exact ⟨by decide +kernel, by decide +kernel, hcall, by decide +kernel, by decide +kernel⟩

end Query

end SqlDialect
