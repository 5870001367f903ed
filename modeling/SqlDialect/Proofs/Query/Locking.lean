import SqlDialect.Profile.Default
import SqlDialect.Proofs.Join.From
import SqlDialect.Proofs.Query.Scope

/-!
This module contains what a lock changes about a query. Whether a query can be locked is checked
apart from its rendering, and the check says exactly when the locked query has a text. That text has
a lock clause and hints on its tables, and is otherwise that of the query without the lock.
-/

namespace SqlDialect

open Compile (Agree)

/-! ## Hints on tables -/

theorem JoinGraph.agree_fromClause (g : JoinGraph) (id : ScopeId) (p : Profile)
    (hint hint' : Option String)
    : Agree (fun x y => y.conditions = x.conditions) (g.fromClause id p hint)
        (g.fromClause id p hint') := by
  unfold fromClause
  refine .bind_same fun s => .ite (.error _) (.bind_same fun correlations => ?_)
  -- The joins are gone through in the same way, and only then the tables are written.
  have hlisted : ∀ predicate, Agree (fun x y => y.conditions = x.conditions)
      (g.listedFrom p hint s.aliases (s.edges.filter s.isLocal) predicate)
      (g.listedFrom p hint' s.aliases (s.edges.filter s.isLocal) predicate) := by
    intro predicate
    rw [listedFrom_eq, listedFrom_eq]
    exact .bind_same fun conditions => .ok rfl
  have hchained : Agree (fun x y => y.conditions = x.conditions)
      (g.chainedFrom p hint s.aliases (s.edges.filter s.isLocal))
      (g.chainedFrom p hint' s.aliases (s.edges.filter s.isLocal)) := by
    refine .bind_same fun chains => ?_
    obtain ⟨texts, htexts⟩ := g.exists_writeChains p hint chains
    obtain ⟨texts', htexts'⟩ := g.exists_writeChains p hint' chains
    rw [htexts, htexts']
    exact .ok rfl
  cases s.joinSyntax with
  | sql92 => exact hchained.map fun x y h => congrArg (correlations ++ ·) h
  | traditional => exact (hlisted _).map fun x y h => congrArg (correlations ++ ·) h
  | native => exact (hlisted _).map fun x y h => congrArg (correlations ++ ·) h

namespace Query

variable {q : Query} {lock : LockRequest}

theorem agree_source (q : Query) (id : ScopeId) (ctx : RenderContext) (hint hint' : Option String)
    : Agree (fun x y => y.condition = x.condition) (q.source id ctx hint)
        (q.source id ctx hint') := by
  unfold source
  refine .bind_same fun s => (q.graph.agree_fromClause id q.profile hint hint').bind ?_
  intro x y h
  dsimp only
  rw [h]
  exact .bind_same fun explicit => .ok rfl

theorem agree_body (q : Query) (id : ScopeId) (ctx : RenderContext) (hint hint' : Option String)
    (ordered : Bool)
    : Agree (fun x y => y.params = x.params) (q.body id ctx hint ordered)
        (q.body id ctx hint' ordered) := by
  unfold body
  refine .bind_same fun s => (q.agree_source id ctx hint hint').bind ?_
  intro x y h
  rw [h]
  refine .bind_same fun groupBy => .bind_same fun having => .ite ?_ ?_
  · exact .bind_same fun orderBy => .ok rfl
  · exact .ok rfl

/-! ## The check -/

theorem supportsLocking_iff
    : q.supportsLocking lock = true
        ↔ ∃ t, q.lockTarget .root lock = .ok t ∧ t.check q.profile = .ok () := by
  rw [← Compile.bind_eq_ok_iff]
  unfold supportsLocking
  split
  · next h => simp [h]
  · next e h => simp [h]

-- Lock clauses need nothing of a dialect but what the check has asked for.
theorem exists_clause?_of_check {t : LockTarget} {p : Profile} (h : t.check p = .ok ())
    (isolation : Option Isolation) (nested : Bool)
    : ∃ clause, p.locking.clause? p isolation true nested = .ok clause := by
  have hrequire : p.require .selectForUpdate = .ok () := by
    unfold LockTarget.check at h
    cases haggregate : t.aggregate with
    | true =>
      rw [haggregate] at h
      cases h
    | false =>
      rw [haggregate] at h
      obtain ⟨_, hrequire, _⟩ := Compile.bind_eq_ok_iff.mp h
      exact hrequire
  unfold Locking.clause?
  simp only [if_true]
  split
  · exact ⟨none, rfl⟩
  · rw [hrequire, Compile.ok_bind]
    split
    · exact ⟨_, rfl⟩
    · exact ⟨_, rfl⟩

theorem lockClause?_unlocked (id : ScopeId) : q.lockClause? id .unlocked = .ok none := by
  unfold lockClause? Locking.clause?
  cases q.profile.locking <;> rfl

theorem exists_lockClause?_iff (hlock : lock.forUpdate = true)
    : (∃ clause, q.lockClause? .root lock = .ok clause) ↔ q.supportsLocking lock = true := by
  have hforUpdate : forUpdate .root lock = true := by simp [forUpdate, hlock]
  rw [supportsLocking_iff]
  simp only [lockClause?, hforUpdate, if_true, Compile.bind_eq_ok_iff]
  constructor
  · rintro ⟨clause, t, ht, _, hcheck, _⟩
    exact ⟨t, ht, hcheck⟩
  · rintro ⟨t, ht, hcheck⟩
    obtain ⟨clause, hclause⟩ := exists_clause?_of_check hcheck lock.effectiveIsolation? false
    exact ⟨clause, t, ht, (), hcheck, hclause⟩

/-! ## Rendering -/

theorem params_selectText (p : Profile) (range : RowRange) (shape : SelectShape)
    (clause : Option String) (items body : Fragment)
    : (selectText p range shape clause items body).params = items.params ++ body.params := by
  simp [selectText, selectFragment, Fragment.render, Fragment.ofTokens]

theorem exists_lockClause?_of_renderScope {id : ScopeId} {ctx : RenderContext} {r : Rendered}
    (h : q.renderScope id lock ctx = .ok r) : ∃ clause, q.lockClause? id lock = .ok clause := by
  rw [renderScope_eq] at h
  obtain ⟨s, _, h⟩ := Compile.bind_eq_ok_iff.mp h
  split at h
  · cases h
  · obtain ⟨clause, hclause, _⟩ := Compile.bind_eq_ok_iff.mp h
    exact ⟨clause, hclause⟩

theorem agree_renderScope {id : ScopeId} {clause : Option String}
    (h : q.lockClause? id lock = .ok clause) (ctx : RenderContext)
    : Agree (fun x y => y.params = x.params) (q.renderScope id lock ctx)
        (q.renderScope id .unlocked ctx) := by
  simp only [renderScope_eq, h, lockClause?_unlocked, Compile.ok_bind]
  refine .bind_same fun s => .ite (.error _) (.bind_same fun tables => .bind_same fun items => ?_)
  refine (q.agree_body id ctx _ _ _).map fun x y hparams => ?_
  rw [params_selectText, params_selectText, hparams]

theorem agree_render {clause : Option String} (h : q.lockClause? .root lock = .ok clause)
    : Agree
        (fun x y => y.columns = x.columns ∧ y.params = x.params ∧ y.skipRows = x.skipRows
          ∧ y.maxRows = x.maxRows)
        (q.render lock) (q.render .unlocked) := by
  unfold render
  refine (agree_renderScope h q.context).bind fun x y hparams => ?_
  exact .bind_same fun s => .ok ⟨rfl, hparams, rfl, rfl⟩

/--
A query that is to be locked has a text if it has one without the lock and can be locked, and then
the lock changes nothing but the text.
-/
theorem render_locked (q : Query) (lock : LockRequest) (hlock : lock.forUpdate = true)
    : ((∃ c, q.render lock = .ok c)
          ↔ (∃ c, q.render .unlocked = .ok c) ∧ q.supportsLocking lock = true)
        ∧ ∀ c c', q.render lock = .ok c → q.render .unlocked = .ok c' →
            c'.columns = c.columns ∧ c'.params = c.params ∧ c'.skipRows = c.skipRows
              ∧ c'.maxRows = c.maxRows := by
  have hclause : ∀ c, q.render lock = .ok c → ∃ clause, q.lockClause? .root lock = .ok clause := by
    intro c hc
    obtain ⟨r, hr, _⟩ := Compile.bind_eq_ok_iff.mp hc
    exact exists_lockClause?_of_renderScope hr
  refine ⟨⟨?_, ?_⟩, ?_⟩
  · rintro ⟨c, hc⟩
    obtain ⟨clause, h⟩ := hclause c hc
    exact ⟨(agree_render h).exists_ok_iff.mp ⟨c, hc⟩, (exists_lockClause?_iff hlock).mp ⟨clause, h⟩⟩
  · rintro ⟨hunlocked, hsupports⟩
    obtain ⟨clause, h⟩ := (exists_lockClause?_iff hlock).mpr hsupports
    exact (agree_render h).exists_ok_iff.mpr hunlocked
  · intro c c' hc hc'
    obtain ⟨clause, h⟩ := hclause c hc
    exact (agree_render h).of_eq_ok hc hc'

-- The lock is a hint on both tables, and the range is a clause of the select and rows to pass over.
theorem render_locked_hints
    : let key : ForeignKey :=
        { columns := ["C_ID"], referencedTable := "C", primaryKeyColumns := ["ID"] }
      let rel : Relation :=
        { name := "c", source := { name := "O" }, target := { name := "C" }, foreignKey := key }
      let build : Compile Query := do
        let q := Query.new { Vendor.sqlServer.profile with joinSyntax := .traditional }
        let (o, q) ← q.fromTable .root { name := "O" }
        let (c, q) ← q.join .root .root rel
        let (_, q) ← q.addItem .root { expr := .column o "ID" }
        let q ← q.addCondition .root (.binary .eq (.column c.ref "NAME") (.param "name"))
        q.setRange .root { start := 2, stop := some 5 }
      let lock : LockRequest := { forUpdate := true }
      ∃ q, build = .ok q ∧ lock.forUpdate = true ∧ q.supportsLocking lock = true
        ∧ ∃ c c', q.render lock = .ok c ∧ q.render .unlocked = .ok c' ∧ c'.columns = c.columns
          ∧ c'.params = c.params ∧ c'.skipRows = c.skipRows ∧ c'.maxRows = c.maxRows := by
  intro key rel build lock
  obtain ⟨q, hq, ⟨c', hc'⟩, hsupports⟩ : ∃ q, build = .ok q
      ∧ (∃ c', q.render .unlocked = .ok c') ∧ q.supportsLocking lock = true :=
    ⟨_, rfl, ⟨_, rfl⟩, rfl⟩
  obtain ⟨hiff, hsame⟩ := render_locked q lock rfl
  obtain ⟨c, hc⟩ := hiff.mpr ⟨⟨c', hc'⟩, hsupports⟩
  exact ⟨q, hq, rfl, hsupports, c, c', hc, hc', hsame c c' hc hc'⟩

end Query
end SqlDialect
