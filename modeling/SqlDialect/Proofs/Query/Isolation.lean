import SqlDialect.Proofs.Query.Nesting

/-!
This module contains what a call leaves alone of a query. A call changes the scope that it is made
on, and may add aliases to scopes that declare a variable. The text of every select that refers to
none of these scopes, not even through others, stays the same, although all selects share one list
of aliases.
-/

namespace SqlDialect

/-! ## The FROM clause -/

namespace JoinGraph

variable {g g' : JoinGraph} {p : Profile} {hint : Option String} {aliases : List Alias}

theorem Extends.table?_eq_some (h : g.Extends g') {a : Alias} {table : String}
    (ha : g.table? a = some table) : g'.table? a = some table := by
  obtain ⟨rest, hrest⟩ := h.tables
  unfold table? at ha ⊢
  rw [← hrest, List.getElem?_append_left (List.getElem?_eq_some_iff.mp ha).1]
  exact ha

theorem tableReference_congr {a : Alias} (h : g'.table? a = g.table? a)
    : g'.tableReference p hint a = g.tableReference p hint a := by
  simp only [tableReference, h]

theorem writeChain_congr {c : JoinChain} (h : ∀ a ∈ c.aliases, g'.table? a = g.table? a)
    : g'.writeChain p hint c = g.writeChain p hint c := by
  have hclauses : c.clauses.mapM (g'.writeClause p hint)
      = c.clauses.mapM (g.writeClause p hint) := by
    apply Compile.mapM_congr
    intro clause hclause
    have hjoined : clause.joined ∈ c.aliases :=
      List.mem_cons_of_mem _ (List.mem_map_of_mem hclause)
    rw [writeClause, writeClause, tableReference_congr (h clause.joined hjoined)]
  rw [writeChain, writeChain, hclauses, tableReference_congr (h c.start List.mem_cons_self)]

theorem chainedFrom_congr {edges : List JoinEdge}
    (hends : ∀ e ∈ edges, e.source ∈ aliases ∧ e.target ∈ aliases)
    (h : ∀ a ∈ aliases, g'.table? a = g.table? a)
    : g'.chainedFrom p hint aliases edges = g.chainedFrom p hint aliases edges := by
  unfold chainedFrom
  apply Compile.bind_congr_of_ok
  intro written hwritten
  obtain ⟨chains, hchains, rfl⟩ := PlacedChain.exists_realizes_of_mapM
    (Traversal.grow_chains (Traversal.frontier_start edges) aliases) hwritten
  -- A chain names tables of the select only.
  have hmem : ∀ c ∈ chains, ∀ a ∈ c.aliases, a ∈ aliases := by
    intro c hc a ha
    rw [← Traversal.mem_chains_iff hends, ← PlacedChain.flatMap_aliases_eq hchains]
    exact List.mem_flatMap.mpr ⟨c, hc, ha⟩
  have htexts : ∀ c ∈ chains, g'.writeChain p hint (c.toChain (·.conditionText p))
      = g.writeChain p hint (c.toChain (·.conditionText p)) := by
    intro c hc
    apply writeChain_congr
    intro a ha
    rw [PlacedChain.aliases_toChain] at ha
    exact h a (hmem c hc a ha)
  rw [List.mapM_map, List.mapM_map]
  simp only [Function.comp_def, Compile.mapM_congr htexts]

theorem listedFrom_congr {edges : List JoinEdge} (predicate : JoinEdge → Compile String)
    (h : ∀ a ∈ aliases, g'.table? a = g.table? a)
    : g'.listedFrom p hint aliases edges predicate
        =
      g.listedFrom p hint aliases edges predicate := by
  have htexts : aliases.mapM (g'.tableReference p hint) = aliases.mapM (g.tableReference p hint) :=
    Compile.mapM_congr fun a ha => tableReference_congr (h a ha)
  rw [listedFrom, listedFrom, htexts]

theorem fromClause_congr {id : ScopeId} (hscope : g'.scope? id = g.scope? id)
    (htables : ∀ s, g.scope? id = some s → ∀ a ∈ s.aliases, g'.table? a = g.table? a)
    : g'.fromClause id p hint = g.fromClause id p hint := by
  simp only [fromClause, scope, hscope]
  cases hs : g.scope? id with
  | none => simp only [Compile.error_bind]
  | some s =>
    have hends : ∀ e ∈ s.edges.filter s.isLocal, e.source ∈ s.aliases ∧ e.target ∈ s.aliases :=
      fun e he => ends_mem_of_isLocal (List.mem_filter.mp he).2
    simp only [Compile.ok_bind, chainedFrom_congr hends (htables s hs),
      listedFrom_congr _ (htables s hs)]

end JoinGraph

/-! ## Selects -/

namespace Query

variable {q q' : Query} {id : ScopeId} {call : QueryCall}

structure Unchanged (q q' : Query) (id : ScopeId) : Prop where
  select? : q'.select? id = q.select? id
  scope? : q'.graph.scope? id = q.graph.scope? id

structure Grows (q q' : Query) : Prop where
  profile : q'.profile = q.profile
  graph : q.graph.Extends q'.graph
  length_le : q.selects.length ≤ q'.selects.length

namespace Unchanged

variable (h : Unchanged q q' id)

include h

theorem select : q'.select id = q.select id := by
  rw [Query.select, h.select?, ← Query.select]

theorem scope : q'.graph.scope id = q.graph.scope id := by
  rw [JoinGraph.scope, h.scope?, ← JoinGraph.scope]

theorem isDistinct : q'.isDistinct id = q.isDistinct id := by
  simp only [Query.isDistinct, h.select?, JoinGraph.isToMany, JoinGraph.isImplicitlyDistinct,
    h.scope?]

theorem shape (s : Select) : q'.shape id s = q.shape id s := by
  rw [Query.shape, h.isDistinct, ← Query.shape]

theorem lockClause? (hprofile : q'.profile = q.profile) (lock : LockRequest)
    : q'.lockClause? id lock = q.lockClause? id lock := by
  simp only [Query.lockClause?, lockTarget, h.select, h.scope, h.shape, hprofile]

theorem fromClause (hgrows : Grows q q') (hwf : q.graph.WellFormed) (p : Profile)
    (hint : Option String) : q'.graph.fromClause id p hint = q.graph.fromClause id p hint := by
  apply JoinGraph.fromClause_congr h.scope?
  intro s hs a ha
  obtain ⟨e, he, rfl⟩ := List.mem_map.mp ha
  have htable := hwf.table_eq id s hs e he
  rw [htable]
  exact hgrows.graph.table?_eq_some htable

theorem renderScope (hgrows : Grows q q') (hwf : q.graph.WellFormed) (lock : LockRequest)
    (ctx : RenderContext) : q'.renderScope id lock ctx = q.renderScope id lock ctx := by
  simp only [renderScope_eq, h.select, h.lockClause? hgrows.profile, tableCount, h.scope, h.shape,
    body, source, h.fromClause hgrows hwf, hgrows.profile]

end Unchanged

/-! ## Nested selects -/

/--
No scope has changed that a select refers to, be it directly, through others or because it is its
own.
-/
def Undisturbed (q q' : Query) (id : ScopeId) : Prop :=
  ∀ i, Relation.ReflTransGen q.Refers id i → Unchanged q q' i

theorem Undisturbed.of_refers {t : ScopeId} (h : Undisturbed q q' id) (ht : q.Refers id t)
    : Undisturbed q q' t :=
  fun i hi => h i (hi.head ht)

theorem undisturbed_of_closed {ids : List ScopeId} (hid : id ∈ ids)
    (hclosed : ∀ i ∈ ids, ∀ x ∈ q.select? i, ∀ e ∈ x.exprs, ∀ t ∈ e.nestedSelects, t ∈ ids)
    (h : ∀ i ∈ ids, Unchanged q q' i) : Undisturbed q q' id := by
  intro i hi
  apply h i
  induction hi with
  | refl => exact hid
  | tail _ hrefers ih =>
    obtain ⟨x, hx, e, he, ht⟩ := hrefers
    exact hclosed _ ih x hx e he _ ht

section Undisturbed

variable (hgrows : Grows q q') (hwf : q.graph.WellFormed)

include hgrows hwf

theorem Undisturbed.renderNested (h : Undisturbed q q' id) (depth : Nat)
    : q'.renderNested depth id = q.renderNested depth id := by
  induction depth generalizing id with
  | zero => rfl
  | succ depth ih =>
    by_cases hid : id = .root
    · rw [hid, renderNested_root, renderNested_root]
    · rw [renderNested_succ hid, renderNested_succ hid, (h id .refl).renderScope hgrows hwf,
        hgrows.profile]
      apply (q.sequenced_renderScope id .unlocked { profile := q.profile }).congr
      intro t ht
      exact ih (h.of_refers (select_mem_steps_iff.mp ht).of_emitted)

theorem Undisturbed.renderScope (hne : q.selects ≠ []) (h : Undisturbed q q' id)
    (lock : LockRequest)
    : q'.renderScope id lock q'.context = q.renderScope id lock q.context := by
  rw [(h id .refl).renderScope hgrows hwf, context, context, hgrows.profile]
  apply (q.sequenced_renderScope id lock { profile := q.profile }).congr
  intro t ht
  rw [(h.of_refers (select_mem_steps_iff.mp ht).of_emitted).renderNested hgrows hwf]
  -- There may be more selects now, but going deeper makes no difference.
  rw [renderNested_of_le hne hgrows.length_le]

theorem Undisturbed.render (hne : q.selects ≠ []) (h : Undisturbed q q' .root)
    (lock : LockRequest) : q'.render lock = q.render lock := by
  have hroot := h .root .refl
  simp only [Query.render, h.renderScope hgrows hwf hne, hroot.select, hroot.shape, hgrows.profile]

end Undisturbed

/-! ## Calls -/

theorem Step.extends (hstep : q.Step call q') : q.graph.Extends q'.graph := by
  have hperform : ∀ {joins graph}, q.graph.perform joins = .ok graph → q.graph.Extends graph := by
    intro joins graph h
    rw [← JoinGraph.after_of_perform h]
    exact .after q.graph joins
  cases hstep with
  | @nest parent inner graph h =>
    have hnest : q.graph.perform (.subselect parent) = .ok graph := by
      rw [JoinGraph.perform, h]
      rfl
    exact hperform hnest
  | joins _ h => exact hperform h
  | edit f => exact .refl q.graph

theorem Step.length_le (hstep : q.Step call q') : q.selects.length ≤ q'.selects.length := by
  cases hstep with
  | nest => simp
  | joins => exact Nat.le_refl _
  | edit f => simp [modifySelect]

theorem Step.grows (hstep : q.Step call q') : Grows q q' where
  profile := profile_of_step hstep
  graph := hstep.extends
  length_le := hstep.length_le

theorem Step.length_eq (hstep : q.Step call q')
    : q'.selects.length = q.selects.length
        ∨ q'.selects.length = q.selects.length + 1 ∧ ∃ parent, call = .subselect parent := by
  cases hstep with
  | @nest parent => exact .inr ⟨by simp, parent, rfl⟩
  | joins => exact .inl rfl
  | edit f => exact .inl (by simp [modifySelect])

theorem Step.select?_eq_some (hstep : q.Step call q') (hid : id ≠ call.scope) {x : Select}
    (hx : q.select? id = some x) : q'.select? id = some x := by
  cases hstep with
  | nest =>
    have hlt := (List.getElem?_eq_some_iff.mp hx).1
    exact (List.getElem?_append_left hlt).trans hx
  | joins => exact hx
  | edit f =>
    rw [select?_modifySelect, if_neg hid.symm]
    exact hx

theorem Step.scope?_eq_some (hstep : q.Step call q') (hid : id ≠ call.scope) {s : Scope}
    (hs : q.graph.scope? id = some s)
    : ∃ added, q'.graph.scope? id = some { s with entries := s.entries ++ added }
        ∧ (added ≠ [] → ∃ v ∈ call.requested, v ∈ s.variableNames) := by
  cases hstep with
  | nest h =>
    obtain ⟨_, _, h⟩ := Compile.bind_eq_ok_iff.mp h
    cases h
    have hne : id.index ≠ q.graph.scopes.length := (JoinGraph.lt_length_of_scope? hs).ne
    refine ⟨[], ?_, by simp⟩
    rw [JoinGraph.scope?_nest, if_neg hne]
    simpa using hs
  | @joins _ joins _ hjoins h =>
    have hconfined := JoinGraph.Confined.of_perform (joins_ne_subselect hjoins) h
    have hrequested : call.requested = joins.requested := by simp [QueryCall.requested, hjoins]
    rw [hrequested]
    exact hconfined.others id s (scope_of_joins? hjoins ▸ hid) hs
  | edit f => exact ⟨[], by simpa [modifySelect] using hs, by simp⟩

/--
A call on one scope leaves all others alone, except that it may add aliases to scopes which declare
a variable that it uses. The text of a select stays the same if none of the scopes has changed that
it refers to.
-/
theorem isolation_of_run (p : Profile) (calls : List QueryCall) (call : QueryCall)
    : let q := (new p).afterAll calls
      let q' := q.after call
      (∀ id x, id ≠ call.scope → q.select? id = some x → q'.select? id = some x)
        ∧ (∀ id s, id ≠ call.scope → q.graph.scope? id = some s →
            ∃ added, q'.graph.scope? id = some { s with entries := s.entries ++ added }
              ∧ (added ≠ [] → ∃ v ∈ call.requested, v ∈ s.variableNames))
        ∧ (∀ s, q.graph.scope? call.scope = some s →
            ∃ s', q'.graph.scope? call.scope = some s' ∧ s'.enclosing = s.enclosing
              ∧ s.entries <+: s'.entries)
        ∧ q'.graph.scopes.length = q'.selects.length
        ∧ (q'.selects.length = q.selects.length
            ∨ q'.selects.length = q.selects.length + 1 ∧ ∃ parent, call = .subselect parent)
        ∧ (∀ id, Undisturbed q q' id → ∀ lock,
            q'.renderScope id lock q'.context = q.renderScope id lock q.context)
        ∧ (Undisturbed q q' .root → ∀ lock, q'.render lock = q.render lock) := by
  intro q q'
  have hne : q.selects ≠ [] := selects_ne_nil_afterAll p calls
  have hwf : q.graph.WellFormed := by
    obtain ⟨joins, hjoins⟩ := exists_joins_afterAll p calls
    rw [hjoins]
    exact (JoinGraph.WellFormed.new p.joinSyntax).afterAll joins
  have hlength : q.graph.scopes.length = q.selects.length := (length_selects_afterAll p calls).symm
  have hstep := q.step_after call
  have hgrows := hstep.grows
  refine ⟨?_, ?_, ?_, ?_, ?_, ?_, ?_⟩
  · exact fun id x hid hx => hstep.select?_eq_some hid hx
  · exact fun id s hid hs => hstep.scope?_eq_some hid hs
  · exact fun s hs => hgrows.graph.scopes call.scope s hs
  · exact (length_selects_of_step hstep hlength.symm).symm
  · exact hstep.length_eq
  · exact fun id h lock => h.renderScope hgrows hwf hne lock
  · exact fun h lock => h.render hgrows hwf hne lock

/--
A root that declares a variable, with one select that nothing refers to and two others, of which one
is nested in the other.
-/
def separateSelects : List QueryCall :=
  [.subselect .root, .subselect .root, .subselect ⟨2⟩, .declareVariable .root "v",
    .fromTable .root { name := "A" }, .addItem .root { expr := .column ⟨0⟩ "ID" },
    .fromTable ⟨2⟩ { name := "B" }, .addItem ⟨2⟩ { expr := .column ⟨1⟩ "ID" },
    .fromTable ⟨3⟩ { name := "C" }, .addItem ⟨3⟩ { expr := .column ⟨2⟩ "ID" },
    .addCondition ⟨2⟩ (.existsIn ⟨3⟩ false)]

-- The call is made on a nested select, but the root declares the variable and gets the alias.
theorem isolation_of_run_declared
    : let q := (new Vendor.generic.profile).afterAll separateSelects
      let q' := q.after (.aliasAt ⟨1⟩ { name := "D" } (.ofVariable "v"))
      (q.render .unlocked).toOption.map (·.sql) = some "SELECT t0.ID FROM A t0"
        ∧ (q'.render .unlocked).toOption.map (·.sql) = some "SELECT t0.ID FROM A t0, D t3"
        ∧ Undisturbed q q' ⟨2⟩
        ∧ q.renderUnlocked ⟨2⟩
            = .ok ⟨"SELECT t1.ID FROM B t1 WHERE EXISTS (SELECT t2.ID FROM C t2)", []⟩
        ∧ q'.renderUnlocked ⟨2⟩ = q.renderUnlocked ⟨2⟩ := by
  intro q q'
  have hundisturbed : Undisturbed q q' ⟨2⟩ := by
    have hids : ∀ i : ScopeId, i ∈ [⟨2⟩, ⟨3⟩] → Unchanged q q' i := by
      intro i hi
      obtain rfl | rfl : i = ⟨2⟩ ∨ i = ⟨3⟩ := by simpa using hi
      · exact ⟨rfl, rfl⟩
      · exact ⟨rfl, rfl⟩
    exact undisturbed_of_closed (by simp) (by decide +kernel) hids
  obtain ⟨_, _, _, _, _, hrender, _⟩ := isolation_of_run Vendor.generic.profile separateSelects
    (.aliasAt ⟨1⟩ { name := "D" } (.ofVariable "v"))
  exact ⟨by decide +kernel, by decide +kernel, hundisturbed, by decide +kernel,
    hrender ⟨2⟩ hundisturbed .unlocked⟩

end Query
end SqlDialect
