import Mathlib.Logic.Relation
import SqlDialect.Join.Graph
import SqlDialect.Proofs.Compile

/-!
This module contains runs of a join graph. A run is a sequence of calls, any of which may fail and
then leaves the graph as it was. As far as aliases are concerned a call is made of four kinds of
steps, and everything that is said about all runs is proved of these steps.
-/

namespace SqlDialect

inductive JoinCall where
  | subselect (parent : ScopeId)
  | declareVariable (id : ScopeId) (variableName : String)
  | aliasFor (id : ScopeId) (table : Table) (path : JoinPath) (create : Bool)
  | join (id : ScopeId) (path : JoinPath) (rel : Relation) (kind : JoinKind)
  | crossJoin (id : ScopeId) (source : Table) (path : JoinPath) (target : Table)
      (variableName : String)
  | clearJoins (id : ScopeId)
  | beginOr (id : ScopeId)
  | nextOrBranch (id : ScopeId)
  | endOr (id : ScopeId)

namespace JoinCall

def declared : JoinCall → List String
  | .declareVariable _ v => [v]
  | _ => []

def requested : JoinCall → List String
  | .aliasFor _ _ path _ | .join _ path _ _ => path.rootVariable?.toList
  | .crossJoin _ _ path _ v => path.rootVariable?.toList ++ [v]
  | _ => []

end JoinCall

theorem JoinPath.rootVariable?_join (path : JoinPath) (relation : String)
    (variableName : Option String)
    : (path.join relation variableName).rootVariable? = path.rootVariable? := by
  obtain ⟨_ | ⟨_ | _, _⟩⟩ := path <;> rfl

namespace JoinGraph

def aliasFor (g : JoinGraph) (id : ScopeId) (table : Table) (path : JoinPath) (create : Bool) :
    Compile (Option Alias × JoinGraph) := do
  if create then
    let (a, g) ← g.requireAlias id table path
    return (some a, g)
  else
    return (← g.aliasOf? id table path, g)

def perform (g : JoinGraph) : JoinCall → Compile JoinGraph
  | .subselect parent => Prod.snd <$> g.subselect parent
  | .declareVariable id v => g.declareVariable id v
  | .aliasFor id table path create => Prod.snd <$> g.aliasFor id table path create
  | .join id path rel kind => Prod.snd <$> g.join id path rel kind
  | .crossJoin id source path target v => Prod.snd <$> g.crossJoin id source path target v
  | .clearJoins id => g.clearJoins id
  | .beginOr id => g.beginOr id
  | .nextOrBranch id => g.nextOrBranch id
  | .endOr id => g.endOr id

def after (g : JoinGraph) (call : JoinCall) : JoinGraph :=
  match g.perform call with
  | .ok g => g
  | .error _ => g

def afterAll (g : JoinGraph) (calls : List JoinCall) : JoinGraph := calls.foldl after g

inductive AliasStep (declared requested : List String) : JoinGraph → JoinGraph → Prop where
  | nest {g : JoinGraph} {parent : ScopeId} {outer : Scope} (joinSyntax : JoinSyntax)
      (hparent : g.scope? parent = some outer) :
      AliasStep declared requested g
        { g with
          scopes := g.scopes ++ [{ enclosing := parent :: outer.enclosing, joinSyntax }] }
  | declare {g : JoinGraph} (id : ScopeId) {v : String} (hv : v ∈ declared) :
      AliasStep declared requested g
        (g.modifyScope id fun s => { s with variableNames := v :: s.variableNames })
  | allocate {g : JoinGraph} {id : ScopeId} {s : Scope} {path : JoinPath} {table : String}
      (hscope : g.scope? id = some s) (hnew : g.findAlias? id s table path = none)
      (hv : ∀ v, path.rootVariable? = some v → v ∈ requested) :
      AliasStep declared requested g (g.allocate ((g.home? id s path).getD id) path table).2
  | edit {g : JoinGraph} (id : ScopeId) {f : Scope → Scope}
      (hf : ∀ s, (f s).enclosing = s.enclosing ∧ (f s).entries = s.entries
        ∧ (f s).variableNames = s.variableNames) :
      AliasStep declared requested g (g.modifyScope id f)

abbrev AliasSteps (declared requested : List String) : JoinGraph → JoinGraph → Prop :=
  Relation.ReflTransGen (AliasStep declared requested)

theorem scope_eq_ok_iff {g : JoinGraph} {id : ScopeId} {s : Scope}
    : g.scope id = .ok s ↔ g.scope? id = some s := by
  unfold scope
  split <;> simp_all

theorem edit_eq_ok {g g' : JoinGraph} {id : ScopeId} {f : Scope → Scope} (h : g.edit id f = .ok g')
    : g' = g.modifyScope id f := by
  unfold edit at h
  rw [Compile.bind_eq_ok_iff] at h
  obtain ⟨_, _, h⟩ := h
  simpa using h.symm

theorem requireAlias_eq_ok_iff {g g' : JoinGraph} {id : ScopeId} {table : Table} {path : JoinPath}
    {a : Alias}
    : g.requireAlias id table path = .ok (a, g')
        ↔
      ∃ s, g.scope? id = some s ∧
        (g.findAlias? id s table.fullName path = some a ∧ g' = g ∨
          g.findAlias? id s table.fullName path = none ∧
            g.allocate ((g.home? id s path).getD id) path table.fullName = (a, g')) := by
  unfold requireAlias
  simp only [Compile.bind_eq_ok_iff, scope_eq_ok_iff]
  constructor
  · rintro ⟨s, hs, h⟩
    refine ⟨s, hs, ?_⟩
    split at h <;> simp_all
  · rintro ⟨s, hs, h | h⟩ <;> exact ⟨s, hs, by simp [h]⟩

theorem aliasOf?_eq_ok_iff {g : JoinGraph} {id : ScopeId} {table : Table} {path : JoinPath}
    {a : Option Alias}
    : g.aliasOf? id table path = .ok a
        ↔
      ∃ s, g.scope? id = some s ∧ g.findAlias? id s table.fullName path = a := by
  unfold aliasOf?
  simp [Compile.bind_eq_ok_iff, scope_eq_ok_iff]

theorem openBranches_edit_eq_ok {g g' : JoinGraph} {id : ScopeId} {f : OrBranches → Scope → Scope}
    (h : (g.openBranches id >>= fun b => g.edit id (f b)) = .ok g')
    : ∃ b, g' = g.modifyScope id (f b) := by
  rw [Compile.bind_eq_ok_iff] at h
  obtain ⟨b, _, h⟩ := h
  exact ⟨b, edit_eq_ok h⟩

section Steps

variable {declared requested : List String} {g g' : JoinGraph} {id : ScopeId}

theorem AliasSteps.of_edit {f : Scope → Scope} (h : g.edit id f = .ok g')
    (hf : ∀ s, (f s).enclosing = s.enclosing ∧ (f s).entries = s.entries
      ∧ (f s).variableNames = s.variableNames)
    : AliasSteps declared requested g g' := by
  rw [edit_eq_ok h]
  apply Relation.ReflTransGen.single
  exact .edit id hf

theorem AliasSteps.of_requireAlias {table : Table} {path : JoinPath} {a : Alias}
    (h : g.requireAlias id table path = .ok (a, g'))
    (hv : ∀ v, path.rootVariable? = some v → v ∈ requested)
    : AliasSteps declared requested g g' := by
  rw [requireAlias_eq_ok_iff] at h
  obtain ⟨s, hs, ⟨_, rfl⟩ | ⟨hnew, halloc⟩⟩ := h
  · exact .refl
  · have hg' : g' = (g.allocate ((g.home? id s path).getD id) path table.fullName).2 := by
      rw [halloc]
    rw [hg']
    apply Relation.ReflTransGen.single
    exact .allocate hs hnew hv

theorem AliasSteps.connect (e : JoinEdge)
    : AliasSteps declared requested g (g.connect id e) := by
  apply Relation.ReflTransGen.single
  apply AliasStep.edit
  intro s
  unfold Scope.record
  split <;> simp

theorem AliasSteps.of_subselect {parent inner : ScopeId} (h : g.subselect parent = .ok (inner, g'))
    : AliasSteps declared requested g g' := by
  unfold subselect at h
  rw [Compile.bind_eq_ok_iff] at h
  obtain ⟨outer, houter, h⟩ := h
  rw [scope_eq_ok_iff] at houter
  simp only [Compile.pure_eq_ok, Except.ok.injEq, Prod.mk.injEq] at h
  obtain ⟨_, rfl⟩ := h
  apply Relation.ReflTransGen.single
  exact .nest _ houter

theorem AliasSteps.of_join {path : JoinPath} {rel : Relation} {kind : JoinKind} {t : JoinedTable}
    (h : g.join id path rel kind = .ok (t, g'))
    : AliasSteps declared path.rootVariable?.toList g g' := by
  unfold join at h
  simp only [Compile.bind_eq_ok_iff, Prod.exists] at h
  obtain ⟨s, _, source, g₁, hsource, target, g₂, htarget, h⟩ := h
  simp only [Compile.pure_eq_ok, Except.ok.injEq, Prod.mk.injEq] at h
  obtain ⟨_, rfl⟩ := h
  have hsteps : AliasSteps declared path.rootVariable?.toList g g₂ := by
    apply Relation.ReflTransGen.trans
    · apply AliasSteps.of_requireAlias hsource
      simp
    · apply AliasSteps.of_requireAlias htarget
      simp [JoinPath.rootVariable?_join]
  apply Relation.ReflTransGen.trans hsteps
  split
  · refine Relation.ReflTransGen.trans ?_ (AliasSteps.connect _)
    apply Relation.ReflTransGen.single
    exact .edit id (by simp)
  · apply AliasSteps.connect

theorem AliasSteps.of_crossJoin {source target : Table} {path : JoinPath} {v : String}
    {t : JoinedTable} (h : g.crossJoin id source path target v = .ok (t, g'))
    : AliasSteps declared (path.rootVariable?.toList ++ [v]) g g' := by
  unfold crossJoin at h
  simp only [Compile.bind_eq_ok_iff, Prod.exists] at h
  obtain ⟨g₁, hedit, a, g₂, hsource, b, g₃, htarget, h⟩ := h
  simp only [Compile.pure_eq_ok, Except.ok.injEq, Prod.mk.injEq] at h
  obtain ⟨_, rfl⟩ := h
  have hsteps₁ : AliasSteps declared (path.rootVariable?.toList ++ [v]) g g₁ :=
    .of_edit hedit (by simp)
  have hsteps₂ : AliasSteps declared (path.rootVariable?.toList ++ [v]) g₁ g₂ :=
    .of_requireAlias hsource (by simp +contextual)
  have hsteps₃ : AliasSteps declared (path.rootVariable?.toList ++ [v]) g₂ g₃ :=
    .of_requireAlias htarget (by simp [JoinPath.ofVariable, JoinPath.rootVariable?])
  apply Relation.ReflTransGen.trans ((hsteps₁.trans hsteps₂).trans hsteps₃)
  apply AliasSteps.connect

theorem AliasSteps.of_aliasFor {table : Table} {path : JoinPath} {create : Bool}
    {a : Option Alias} (h : g.aliasFor id table path create = .ok (a, g'))
    : AliasSteps declared path.rootVariable?.toList g g' := by
  unfold aliasFor at h
  split at h
  · simp only [Compile.bind_eq_ok_iff, Prod.exists] at h
    obtain ⟨b, g₁, hrequire, h⟩ := h
    simp only [Compile.pure_eq_ok, Except.ok.injEq, Prod.mk.injEq] at h
    obtain ⟨_, rfl⟩ := h
    exact .of_requireAlias hrequire (by simp)
  · rw [Compile.bind_eq_ok_iff] at h
    obtain ⟨b, _, h⟩ := h
    simp only [Compile.pure_eq_ok, Except.ok.injEq, Prod.mk.injEq] at h
    obtain ⟨_, rfl⟩ := h
    exact .refl

end Steps

theorem snd_map_eq_ok {α : Type} {x : Compile (α × JoinGraph)} {g' : JoinGraph}
    (h : Prod.snd <$> x = .ok g') : ∃ a, x = .ok (a, g') := by
  cases x with
  | error e => cases h
  | ok r =>
    cases h
    exact ⟨r.1, rfl⟩

theorem AliasSteps.of_perform {g g' : JoinGraph} {call : JoinCall} (h : g.perform call = .ok g')
    : AliasSteps call.declared call.requested g g' := by
  cases call with
  | subselect parent =>
    obtain ⟨_, h⟩ := snd_map_eq_ok h
    exact .of_subselect h
  | declareVariable id v =>
    rw [edit_eq_ok h]
    apply Relation.ReflTransGen.single
    exact .declare id (by simp [JoinCall.declared])
  | aliasFor id table path create =>
    obtain ⟨_, h⟩ := snd_map_eq_ok h
    exact .of_aliasFor h
  | join id path rel kind =>
    obtain ⟨_, h⟩ := snd_map_eq_ok h
    exact .of_join h
  | crossJoin id source path target v =>
    obtain ⟨_, h⟩ := snd_map_eq_ok h
    exact .of_crossJoin h
  | clearJoins id => exact .of_edit h (by simp)
  | beginOr id => exact .of_edit h (by simp)
  | nextOrBranch id =>
    obtain ⟨b, rfl⟩ := openBranches_edit_eq_ok h
    exact .single (.edit id (by simp))
  | endOr id =>
    obtain ⟨b, rfl⟩ := openBranches_edit_eq_ok h
    exact .single (.edit id (by simp [Scope.closeOr]))

theorem AliasSteps.after (g : JoinGraph) (call : JoinCall)
    : AliasSteps call.declared call.requested g (g.after call) := by
  unfold JoinGraph.after
  split
  · next h => exact .of_perform h
  · exact .refl

theorem after_preserves {P : JoinGraph → Prop} {call : JoinCall} {g : JoinGraph}
    (hstep : ∀ {g g'}, AliasStep call.declared call.requested g g' → P g → P g') (h : P g)
    : P (g.after call) := by
  have hsteps := AliasSteps.after g call
  generalize g.after call = g' at hsteps ⊢
  induction hsteps with
  | refl => exact h
  | tail _ hlast ih => exact hstep hlast ih

theorem afterAll_preserves {P : JoinGraph → Prop} {g : JoinGraph} (calls : List JoinCall)
    (hstep : ∀ {declared requested g g'}, AliasStep declared requested g g' → P g → P g') (h : P g)
    : P (g.afterAll calls) := by
  induction calls generalizing g with
  | nil => exact h
  | cons call calls ih =>
    apply ih
    exact after_preserves hstep h

end JoinGraph
end SqlDialect
