import SqlDialect.Proofs.Join.Edges
import SqlDialect.Proofs.Join.Traversal

/-!
This module contains what becomes of the joins that a scope is asked for. A join goes to the branch
of the OR that is open in its scope, or else to the joins of the scope, and closing the OR moves it
from the one to the others. It is lost only when an OR is begun while another one is open: the
branches of the other one are then forgotten, together with the joins that wait in them.
-/

namespace SqlDialect

/-! ## Lists of joins -/

def HasJoin (edges : List JoinEdge) (a b : Alias) : Prop := ∃ e ∈ edges, e.Joins a b

section Lists

variable {edges : List JoinEdge} {a b : Alias} {e : JoinEdge}

instance : Decidable (e.Joins a b) :=
  inferInstanceAs (Decidable (_ ∧ _ ∨ _ ∧ _))

instance : Decidable (HasJoin edges a b) :=
  inferInstanceAs (Decidable (∃ _ ∈ _, _))

theorem HasJoin.mono {more : List JoinEdge} (h : HasJoin edges a b) (hsub : edges ⊆ more)
    : HasJoin more a b := by
  obtain ⟨e, he, hjoins⟩ := h
  exact ⟨e, hsub he, hjoins⟩

theorem joins_of_samePair {f : JoinEdge} (hpair : f.samePair e) (h : e.Joins a b)
    : f.Joins a b := by
  unfold JoinEdge.samePair at hpair
  unfold JoinEdge.Joins at h ⊢
  grind

theorem hasJoin_recordEdge (h : e.Joins a b) : HasJoin (recordEdge edges e) a b := by
  unfold recordEdge
  split
  · next hknown =>
    obtain ⟨f, hf, hpair⟩ := List.any_eq_true.mp hknown
    exact ⟨f, hf, joins_of_samePair hpair h⟩
  · exact ⟨e, by simp, h⟩

theorem hasJoin_foldl_recordEdge {new : List JoinEdge} (edges : List JoinEdge)
    (h : HasJoin new a b) : HasJoin (new.foldl recordEdge edges) a b := by
  induction new generalizing edges with
  | nil =>
    obtain ⟨e, he, _⟩ := h
    cases he
  | cons f new ih =>
    obtain ⟨e, he, hjoins⟩ := h
    obtain rfl | he := List.mem_cons.mp he
    · exact (hasJoin_recordEdge hjoins).mono (prefix_foldl_recordEdge new _).subset
    · exact ih _ ⟨e, he, hjoins⟩

end Lists

theorem OrBranches.hasJoin_merge {o : OrBranches} {branch : List JoinEdge} {a b : Alias}
    (hbranch : branch ∈ o.all) (h : HasJoin branch a b) (joinSyntax : JoinSyntax)
    : HasJoin (o.merge joinSyntax) a b := by
  have hall : HasJoin o.all.flatten a b := h.mono fun _ => List.mem_flatten_of_mem hbranch
  obtain ⟨e, he, hjoins⟩ := hasJoin_foldl_recordEdge [] hall
  refine ⟨_, List.mem_map_of_mem he, ?_⟩
  split
  · exact hjoins
  · exact hjoins

/-! ## Scopes -/

namespace Scope

variable {s s' : Scope} {a b : Alias}

def branches (s : Scope) : List (List JoinEdge) := (s.openOr.map (·.all)).getD []

def Awaits (s : Scope) (a b : Alias) : Prop := ∃ branch ∈ s.branches, HasJoin branch a b

def Holds (s : Scope) (a b : Alias) : Prop := HasJoin s.edges a b ∨ s.Awaits a b

instance : Decidable (s.Awaits a b) :=
  inferInstanceAs (Decidable (∃ _ ∈ _, _))

theorem branches_of_openOr {o : OrBranches} (h : s.openOr = some o) : s.branches = o.all := by
  simp [branches, h]

theorem branches_of_closed (h : s.openOr = none) : s.branches = [] := by
  simp [branches, h]

theorem Holds.hasJoin (h : s.Holds a b) (hclosed : s.openOr = none) : HasJoin s.edges a b := by
  obtain h | ⟨branch, hbranch, _⟩ := h
  · exact h
  · rw [branches_of_closed hclosed] at hbranch
    cases hbranch

theorem Holds.mono (h : s.Holds a b) (hedges : s.edges ⊆ s'.edges)
    (hbranches : ∀ branch ∈ s.branches, ∃ branch' ∈ s'.branches, branch ⊆ branch')
    : s'.Holds a b := by
  obtain h | ⟨branch, hbranch, h⟩ := h
  · exact .inl (h.mono hedges)
  · obtain ⟨branch', hbranch', hsub⟩ := hbranches branch hbranch
    exact .inr ⟨branch', hbranch', h.mono hsub⟩

theorem holds_record {e : JoinEdge} (h : e.Joins a b) : (s.record e).Holds a b := by
  unfold record
  split
  · next o ho =>
    exact .inr ⟨recordEdge o.current e, by simp [branches, OrBranches.all], hasJoin_recordEdge h⟩
  · exact .inl (hasJoin_recordEdge h)

theorem Holds.record (h : s.Holds a b) (e : JoinEdge) : (s.record e).Holds a b := by
  have hmore : ∀ store, store ⊆ recordEdge store e := fun store =>
    (prefix_recordEdge store e).subset
  unfold Scope.record
  split
  · next o ho =>
    refine h.mono (fun _ he => he) ?_
    rw [branches_of_openOr ho]
    intro branch hbranch
    obtain hbranch | rfl : branch ∈ o.earlier ∨ branch = o.current := by
      simpa [OrBranches.all] using hbranch
    · exact ⟨branch, by simp [branches, OrBranches.all, hbranch], List.Subset.refl _⟩
    · exact ⟨_, by simp [branches, OrBranches.all], hmore o.current⟩
  · next ho =>
    apply h.mono (hmore s.edges)
    simp [branches_of_closed ho]

theorem Holds.closeOr {o : OrBranches} (h : s.Holds a b) (ho : s.openOr = some o)
    : (s.closeOr o).Holds a b := by
  left
  obtain h | ⟨branch, hbranch, h⟩ := h
  · exact h.mono (prefix_foldl_recordEdge _ _).subset
  · rw [branches_of_openOr ho] at hbranch
    exact hasJoin_foldl_recordEdge s.edges (o.hasJoin_merge hbranch h s.joinSyntax)

theorem Holds.nextBranch {o : OrBranches} (h : s.Holds a b) (ho : s.openOr = some o)
    : { s with openOr := some { earlier := o.all, current := [] } : Scope }.Holds a b := by
  refine h.mono (fun _ he => he) ?_
  rw [branches_of_openOr ho]
  intro branch hbranch
  exact ⟨branch, List.mem_append_left _ hbranch, List.Subset.refl _⟩

theorem Holds.beginOr (h : s.Holds a b) (hsafe : s.Awaits a b → HasJoin s.edges a b)
    : { s with openOr := some {} : Scope }.Holds a b :=
  .inl (h.elim (fun h => h) hsafe)

theorem Holds.of_eq (h : s.Holds a b) (hedges : s'.edges = s.edges) (hopen : s'.openOr = s.openOr)
    : s'.Holds a b := by
  unfold Holds Awaits branches at h ⊢
  rw [hedges, hopen]
  exact h

inductive Moves (recorded : JoinEdge → Prop) (cleared opened : Prop) (s : Scope) :
    Scope → Prop where
  | keep {s' : Scope} (hedges : s'.edges = s.edges) (hopen : s'.openOr = s.openOr) :
      Moves recorded cleared opened s s'
  | record {s' : Scope} {e : JoinEdge} (he : recorded e) (hedges : s'.edges = s.edges)
      (hopen : s'.openOr = s.openOr) : Moves recorded cleared opened s (s'.record e)
  | clear (h : cleared) : Moves recorded cleared opened s { s with edges := [] }
  | beginOr (h : opened) : Moves recorded cleared opened s { s with openOr := some {} }
  | nextBranch {o : OrBranches} (ho : s.openOr = some o) :
      Moves recorded cleared opened s { s with openOr := some { earlier := o.all, current := [] } }
  | closeOr {o : OrBranches} (ho : s.openOr = some o) :
      Moves recorded cleared opened s (s.closeOr o)

variable {recorded : JoinEdge → Prop} {cleared opened : Prop}

theorem Moves.holds (h : s.Moves recorded cleared opened s') (hcleared : ¬ cleared)
    (hopened : opened → s.Awaits a b → HasJoin s.edges a b) (hs : s.Holds a b)
    : s'.Holds a b := by
  cases h with
  | keep hedges hopen => exact hs.of_eq hedges hopen
  | record he hedges hopen => exact (hs.of_eq hedges hopen).record _
  | clear h => exact absurd h hcleared
  | beginOr h => exact hs.beginOr (hopened h)
  | nextBranch ho => exact hs.nextBranch ho
  | closeOr ho => exact hs.closeOr ho

theorem Moves.openOr_eq_none (h : s.Moves recorded cleared opened s') (hopened : ¬ opened)
    (hs : s.openOr = none) : s'.openOr = none := by
  cases h with
  | keep hedges hopen => rw [hopen, hs]
  | record he hedges hopen =>
    unfold Scope.record
    rw [hopen, hs]
  | clear h => exact hs
  | beginOr h => exact absurd h hopened
  | nextBranch ho =>
    rw [hs] at ho
    cases ho
  | closeOr ho => rfl

end Scope

/-! ## Calls -/

def JoinCall.opened : JoinCall → List ScopeId
  | .beginOr id => [id]
  | _ => []

def JoinCall.Requests : JoinCall → JoinEdge → Prop
  | .join _ _ rel _, e => e.foreignKey = some rel.foreignKey ∧ e.inverse = rel.inverse
  | .crossJoin .., e => e.kind = .cross
  | _, _ => False

def JoinCall.IsConditional : JoinCall → Prop
  | .join _ _ _ kind => kind ≠ .cross
  | _ => False

def JoinCall.IsOuter : JoinCall → Prop
  | .join _ _ _ kind => kind = .outer
  | _ => False

def JoinCall.Asks (call : JoinCall) (e : JoinEdge) : Prop :=
  call.Requests e ∧ (call.IsConditional → e.kind ≠ .cross)

namespace JoinGraph

variable {g g' : JoinGraph} {id : ScopeId} {a b : Alias}

structure SameJoins (g g' : JoinGraph) : Prop where
  length_eq : g'.scopes.length = g.scopes.length
  scopes : ∀ id s, g.scope? id = some s →
    ∃ s', g'.scope? id = some s' ∧ s'.edges = s.edges ∧ s'.openOr = s.openOr

namespace SameJoins

theorem refl (g : JoinGraph) : g.SameJoins g := ⟨rfl, fun _ s hs => ⟨s, hs, rfl, rfl⟩⟩

theorem trans {g'' : JoinGraph} (h : g.SameJoins g') (h' : g'.SameJoins g'') : g.SameJoins g'' where
  length_eq := h'.length_eq.trans h.length_eq
  scopes := by
    intro id s hs
    obtain ⟨s', hs', hedges, hopen⟩ := h.scopes id s hs
    obtain ⟨s'', hs'', hedges', hopen'⟩ := h'.scopes id s' hs'
    exact ⟨s'', hs'', hedges'.trans hedges, hopen'.trans hopen⟩

theorem scope?_eq_none (h : g.SameJoins g') (hid : g.scope? id = none)
    : g'.scope? id = none := by
  unfold scope? at hid ⊢
  rw [List.getElem?_eq_none_iff] at hid ⊢
  rw [h.length_eq]
  exact hid

theorem modifyScope (g : JoinGraph) (i : ScopeId) {f : Scope → Scope}
    (hf : ∀ s, (f s).edges = s.edges ∧ (f s).openOr = s.openOr)
    : g.SameJoins (g.modifyScope i f) where
  length_eq := List.length_modify ..
  scopes := by
    intro id s hs
    obtain ⟨t, ht, rfl | ⟨_, rfl⟩⟩ := exists_scope?_modifyScope (i := i) (f := f) hs
    · exact ⟨t, ht, rfl, rfl⟩
    · exact ⟨f s, ht, hf s⟩

theorem of_requireAlias {table : Table} {path : JoinPath}
    (h : g.requireAlias id table path = .ok (a, g')) : g.SameJoins g' := by
  rw [requireAlias_eq_ok_iff] at h
  obtain ⟨s, _, ⟨_, rfl⟩ | ⟨_, halloc⟩⟩ := h
  · exact .refl g'
  · obtain rfl : _ = g' := congrArg Prod.snd halloc
    have hsame : g.SameJoins { g with tables := g.tables ++ [table.fullName] } :=
      ⟨rfl, fun _ s hs => ⟨s, hs, rfl, rfl⟩⟩
    exact hsame.trans (.modifyScope _ _ fun _ => ⟨rfl, rfl⟩)

end SameJoins

theorem join_eq_ok {path : JoinPath} {rel : Relation} {kind : JoinKind} {t : JoinedTable}
    (h : g.join id path rel kind = .ok (t, g'))
    : ∃ g₁ g₂ g₃ e, g.requireAlias id rel.source path = .ok (e.source, g₁)
        ∧ g₁.requireAlias id rel.target (path.join rel.name rel.variableName) = .ok (e.target, g₂)
        ∧ (g₃ = g₂ ∨
            g₃ = g₂.modifyScope id fun s => { s with toMany := true, implicitDistinct := true })
        ∧ ((JoinCall.join id path rel kind).Asks e ∧ (e.kind = .outer → kind = .outer))
        ∧ t = ⟨e.target, path.join rel.name rel.variableName⟩ ∧ g' = g₃.connect id e := by
  unfold join at h
  simp only [Compile.bind_eq_ok_iff, Prod.exists] at h
  obtain ⟨s, _, source, g₁, hsource, target, g₂, htarget, h⟩ := h
  simp only [Compile.pure_eq_ok, Except.ok.injEq, Prod.mk.injEq] at h
  obtain ⟨rfl, rfl⟩ := h
  refine ⟨g₁, g₂, _, _, hsource, htarget, ?_, ⟨⟨⟨rfl, rfl⟩, fun hkind => ?_⟩, fun hkind => ?_⟩,
    rfl, rfl⟩
  · split
    · exact .inr rfl
    · exact .inl rfl
  · -- An outer join may be recorded as an inner one.
    dsimp only
    split
    · simp
    · exact hkind
  · dsimp only at hkind
    split at hkind
    · cases hkind
    · exact hkind

theorem crossJoin_eq_ok {source target : Table} {path : JoinPath} {v : String} {t : JoinedTable}
    (h : g.crossJoin id source path target v = .ok (t, g'))
    : ∃ g₁ g₂ e,
        (g.modifyScope id fun s => { s with implicitDistinct := true }).requireAlias id source path
          = .ok (e.source, g₁)
        ∧ g₁.requireAlias id target (.ofVariable v) = .ok (e.target, g₂)
        ∧ (JoinCall.crossJoin id source path target v).Asks e
        ∧ t = ⟨e.target, .ofVariable v⟩ ∧ g' = g₂.connect id e := by
  unfold crossJoin at h
  simp only [Compile.bind_eq_ok_iff, Prod.exists] at h
  obtain ⟨g₀, hedit, a, g₁, hsource, b, g₂, htarget, h⟩ := h
  simp only [Compile.pure_eq_ok, Except.ok.injEq, Prod.mk.injEq] at h
  obtain ⟨rfl, rfl⟩ := h
  rw [edit_eq_ok hedit] at hsource
  refine ⟨g₁, g₂, _, hsource, htarget, ?_, rfl, rfl⟩
  exact ⟨rfl, False.elim⟩

theorem exists_scope?_of_requireAlias {table : Table} {path : JoinPath}
    (h : g.requireAlias id table path = .ok (a, g')) : ∃ s, g'.scope? id = some s := by
  obtain ⟨s, hs, _⟩ := requireAlias_eq_ok_iff.mp h
  obtain ⟨s', hs', _⟩ := (SameJoins.of_requireAlias h).scopes id s hs
  exact ⟨s', hs'⟩

def Connects (g : JoinGraph) (id : ScopeId) (e : JoinEdge) (g' : JoinGraph) : Prop :=
  ∃ g₁ s, g.SameJoins g₁ ∧ g₁.scope? id = some s ∧ g' = g₁.connect id e

theorem connects_of_join {path : JoinPath} {rel : Relation} {kind : JoinKind} {t : JoinedTable}
    (h : g.join id path rel kind = .ok (t, g'))
    : ∃ e g₁, g.Connects id e g'
        ∧ ((JoinCall.join id path rel kind).Asks e ∧ (e.kind = .outer → kind = .outer))
        ∧ g.requireAlias id rel.source path = .ok (e.source, g₁) ∧ t.ref = e.target := by
  obtain ⟨g₁, g₂, g₃, e, hsource, htarget, hg₃, hrequests, rfl, rfl⟩ := join_eq_ok h
  have hsame : g.SameJoins g₂ :=
    (SameJoins.of_requireAlias hsource).trans (.of_requireAlias htarget)
  obtain ⟨s, hs⟩ := exists_scope?_of_requireAlias htarget
  refine ⟨e, g₁, ?_, hrequests, hsource, rfl⟩
  obtain rfl | rfl := hg₃
  · exact ⟨_, s, hsame, hs, rfl⟩
  · obtain ⟨s', hs', _⟩ := exists_scope?_modifyScope hs
    exact ⟨_, s', hsame.trans (.modifyScope g₂ id (by simp)), hs', rfl⟩

theorem connects_of_crossJoin {source target : Table} {path : JoinPath} {v : String}
    {t : JoinedTable} (h : g.crossJoin id source path target v = .ok (t, g'))
    : ∃ e g₁, g.Connects id e g' ∧ (JoinCall.crossJoin id source path target v).Asks e
        ∧ (g.modifyScope id fun s => { s with implicitDistinct := true }).requireAlias
            id source path = .ok (e.source, g₁)
        ∧ t.ref = e.target := by
  obtain ⟨g₁, g₂, e, hsource, htarget, hrequests, rfl, rfl⟩ := crossJoin_eq_ok h
  have hsame : g.SameJoins (g.modifyScope id fun s => { s with implicitDistinct := true }) :=
    .modifyScope g id (by simp)
  obtain ⟨s, hs⟩ := exists_scope?_of_requireAlias htarget
  refine ⟨e, g₁, ⟨g₂, s, ?_, hs, rfl⟩, hrequests, hsource, rfl⟩
  exact (hsame.trans (.of_requireAlias hsource)).trans (.of_requireAlias htarget)

theorem findAlias?_modifyScope {f : Scope → Scope} {s : Scope} {table : String} {path : JoinPath}
    (hf : ∀ s, (f s).enclosing = s.enclosing ∧ (f s).entries = s.entries
      ∧ (f s).variableNames = s.variableNames) (i : ScopeId)
    : (g.modifyScope i f).findAlias? id (f s) table path = g.findAlias? id s table path := by
  have hlookup : ∀ s, (f s).lookup? path table = s.lookup? path table := by
    intro s
    unfold Scope.lookup?
    rw [(hf s).2.1]
  have hbind : ∀ j, ((g.modifyScope i f).scope? j).bind (·.lookup? path table)
      = (g.scope? j).bind (·.lookup? path table) := by
    intro j
    rw [scope?_modifyScope]
    split
    · cases g.scope? j <;> simp [hlookup]
    · rfl
  have hany : ∀ v j, ((g.modifyScope i f).scope? j).any (·.variableNames.contains v)
      = (g.scope? j).any (·.variableNames.contains v) := by
    intro v j
    rw [scope?_modifyScope]
    split
    · cases g.scope? j <;> simp [hf]
    · rfl
  have hhome : (g.modifyScope i f).home? id (f s) path = g.home? id s path := by
    unfold home? declaringScope?
    simp only [hany, (hf s).1]
  unfold findAlias?
  simp only [hlookup, hbind, hhome, (hf s).1, Scope.occurrence?, (hf s).2.1]

theorem eq_of_requireAlias_modifyScope {f : Scope → Scope} {g₁ g₂ : JoinGraph} {table : Table}
    {path : JoinPath}
    (hf : ∀ s, (f s).enclosing = s.enclosing ∧ (f s).entries = s.entries
      ∧ (f s).variableNames = s.variableNames)
    (h : g.requireAlias id table path = .ok (a, g₁))
    (h' : (g.modifyScope id f).requireAlias id table path = .ok (b, g₂)) : b = a := by
  rw [requireAlias_eq_ok_iff] at h h'
  obtain ⟨s, hs, h⟩ := h
  obtain ⟨s', hs', h'⟩ := h'
  rw [scope?_modifyScope, if_pos rfl, hs] at hs'
  obtain rfl := Option.some.inj hs'
  rw [findAlias?_modifyScope hf] at h'
  obtain ⟨hfound, _⟩ | ⟨hnew, halloc⟩ := h
  · simp_all
  · obtain ⟨hfound', _⟩ | ⟨_, halloc'⟩ := h'
    · simp_all
    · exact (congrArg Prod.fst halloc').symm.trans (congrArg Prod.fst halloc)

/--
A call that joins two aliases in a scope: the one for the table that it starts from, and the one
that it gives back.
-/
def Joining (g : JoinGraph) (id : ScopeId) (a b : Alias) : JoinCall → Prop
  | .join i path rel kind =>
    i = id ∧ (∃ g₁, g.requireAlias i rel.source path = .ok (a, g₁))
      ∧ ∃ next g', g.join i path rel kind = .ok (⟨b, next⟩, g')
  | .crossJoin i source path target v =>
    i = id ∧ (∃ g₁, g.requireAlias i source path = .ok (a, g₁))
      ∧ ∃ next g', g.crossJoin i source path target v = .ok (⟨b, next⟩, g')
  | _ => False

def Records (g : JoinGraph) (id : ScopeId) (call : JoinCall) (e : JoinEdge) : Prop :=
  call.Requests e ∧ (e.kind = .outer → call.IsOuter ∧ g.Joining id e.source e.target call)

theorem after_of_perform {call : JoinCall} (h : g.perform call = .ok g') : g.after call = g' := by
  rw [JoinGraph.after, h]

theorem after_of_join {path : JoinPath} {rel : Relation} {kind : JoinKind} {t : JoinedTable}
    (h : g.join id path rel kind = .ok (t, g')) : g.after (.join id path rel kind) = g' := by
  apply after_of_perform
  rw [perform, h]
  rfl

theorem connects_of_joining {call : JoinCall} (h : g.Joining id a b call)
    : ∃ e, g.Connects id e (g.after call) ∧ call.Asks e ∧ e.source = a ∧ e.target = b := by
  cases call with
  | join i path rel kind =>
    obtain ⟨rfl, ⟨g₀, ha⟩, next, g', h⟩ := h
    obtain ⟨e, g₁, hconnects, ⟨hrequests, _⟩, hsource, htarget⟩ := connects_of_join h
    rw [ha] at hsource
    cases hsource
    rw [after_of_join h]
    exact ⟨e, hconnects, hrequests, rfl, htarget.symm⟩
  | crossJoin i source path target v =>
    obtain ⟨rfl, ⟨g₀, ha⟩, next, g', h⟩ := h
    have hafter : g.after (.crossJoin i source path target v) = g' := by
      apply after_of_perform
      rw [perform, h]
      rfl
    obtain ⟨e, g₁, hconnects, hrequests, hsource, htarget⟩ := connects_of_crossJoin h
    have hsame := eq_of_requireAlias_modifyScope (by simp) ha hsource
    exact ⟨e, hafter ▸ hconnects, hrequests, hsame, htarget.symm⟩
  | _ => cases h

def Joined (g : JoinGraph) (id : ScopeId) (a b : Alias) : Prop :=
  ∃ s ∈ g.scope? id, HasJoin s.edges a b

instance : Decidable (g.Joined id a b) :=
  inferInstanceAs (Decidable (∃ _ ∈ _, _))

def Holds (g : JoinGraph) (id : ScopeId) (a b : Alias) : Prop := ∃ s ∈ g.scope? id, s.Holds a b

def Awaits (g : JoinGraph) (id : ScopeId) (a b : Alias) : Prop := ∃ s ∈ g.scope? id, s.Awaits a b

instance : Decidable (g.Awaits id a b) :=
  inferInstanceAs (Decidable (∃ _ ∈ _, _))

def Closed (g : JoinGraph) (id : ScopeId) : Prop := ∀ s ∈ g.scope? id, s.openOr = none

instance : Decidable (g.Closed id) :=
  inferInstanceAs (Decidable (∀ _ ∈ _, _))

theorem holds_of_connects {e : JoinEdge} (h : g.Connects id e g')
    : g'.Holds id e.source e.target := by
  obtain ⟨g₁, s, _, hs, rfl⟩ := h
  unfold connect Holds
  rw [scope?_modifyScope, if_pos rfl, hs]
  exact ⟨_, rfl, Scope.holds_record (.inl ⟨rfl, rfl⟩)⟩

/--
What a call can do to a graph as far as its joins and its open ORs are concerned. A new scope has no
joins and no OR is open in it, and its joins will not be clauses of their own.
-/
structure Moves (call : JoinCall) (g g' : JoinGraph) : Prop where
  scopes : ∀ id s, g.scope? id = some s →
    ∃ s', g'.scope? id = some s'
      ∧ s.Moves (g.Records id call) (id ∈ call.cleared) (id ∈ call.opened) s'
  fresh : ∀ id s', g.scope? id = none → g'.scope? id = some s' →
    (s'.edges = [] ∧ s'.openOr = none) ∧ s'.joinSyntax ≠ .sql92

namespace Moves

variable {call : JoinCall}

theorem of_sameJoins (h : g.SameJoins g') : Moves call g g' where
  scopes := by
    intro id s hs
    obtain ⟨s', hs', hedges, hopen⟩ := h.scopes id s hs
    exact ⟨s', hs', .keep hedges hopen⟩
  fresh := by
    intro id s' hid hs'
    rw [h.scope?_eq_none hid] at hs'
    cases hs'

theorem modifyScope {i : ScopeId} {f : Scope → Scope}
    (hf : ∀ s, g.scope? i = some s →
      s.Moves (g.Records i call) (i ∈ call.cleared) (i ∈ call.opened) (f s))
    : Moves call g (g.modifyScope i f) where
  scopes := by
    intro id s hs
    obtain ⟨t, ht, rfl | ⟨rfl, rfl⟩⟩ := exists_scope?_modifyScope (i := i) (f := f) hs
    · exact ⟨t, ht, .keep rfl rfl⟩
    · exact ⟨f s, ht, hf s hs⟩
  fresh := by
    intro id s' hid hs'
    obtain ⟨s, hs, _⟩ := scope?_modifyScope_eq_some hs'
    rw [hid] at hs
    cases hs

theorem of_connects {e : JoinEdge} (h : g.Connects id e g') (he : g.Records id call e)
    : Moves call g g' := by
  obtain ⟨g₁, _, hsame, _, rfl⟩ := h
  refine ⟨?_, ?_⟩
  · intro i s hs
    obtain ⟨s₁, hs₁, hedges, hopen⟩ := hsame.scopes i s hs
    unfold connect
    rw [scope?_modifyScope, hs₁]
    split
    · next hi =>
      subst hi
      refine ⟨_, rfl, .record ?_ hedges hopen⟩
      cases call <;> exact he
    · exact ⟨s₁, rfl, .keep hedges hopen⟩
  · intro i s' hi hs'
    obtain ⟨s₁, hs₁, _⟩ := scope?_modifyScope_eq_some hs'
    rw [hsame.scope?_eq_none hi] at hs₁
    cases hs₁

theorem of_subselect {parent inner : ScopeId} (h : g.subselect parent = .ok (inner, g'))
    : Moves call g g' := by
  unfold subselect at h
  obtain ⟨outer, _, h⟩ := Compile.bind_eq_ok_iff.mp h
  simp only [Compile.pure_eq_ok, Except.ok.injEq, Prod.mk.injEq] at h
  obtain ⟨_, rfl⟩ := h
  refine ⟨?_, ?_⟩
  · intro id s hs
    have hlt := lt_length_of_scope? hs
    refine ⟨s, ?_, .keep rfl rfl⟩
    rw [scope?_nest, if_neg (by omega)]
    exact hs
  · intro id s' hid hs'
    rw [scope?_nest] at hs'
    split at hs'
    · cases hs'
      refine ⟨⟨rfl, rfl⟩, ?_⟩
      cases outer.joinSyntax <;> simp
    · rw [hid] at hs'
      cases hs'

theorem of_aliasFor {table : Table} {path : JoinPath} {create : Bool} {a : Option Alias}
    (h : g.aliasFor id table path create = .ok (a, g')) : Moves call g g' := by
  unfold aliasFor at h
  split at h
  · simp only [Compile.bind_eq_ok_iff, Prod.exists] at h
    obtain ⟨_, g₁, hrequire, h⟩ := h
    simp only [Compile.pure_eq_ok, Except.ok.injEq, Prod.mk.injEq] at h
    obtain ⟨_, rfl⟩ := h
    exact of_sameJoins (.of_requireAlias hrequire)
  · obtain ⟨_, _, h⟩ := Compile.bind_eq_ok_iff.mp h
    simp only [Compile.pure_eq_ok, Except.ok.injEq, Prod.mk.injEq] at h
    obtain ⟨_, rfl⟩ := h
    exact of_sameJoins (.refl g)

theorem of_perform (h : g.perform call = .ok g') : Moves call g g' := by
  cases call with
  | subselect parent =>
    obtain ⟨_, h⟩ := snd_map_eq_ok h
    exact of_subselect h
  | declareVariable i v =>
    rw [edit_eq_ok h]
    exact modifyScope fun _ _ => .keep rfl rfl
  | aliasFor i table path create =>
    obtain ⟨_, h⟩ := snd_map_eq_ok h
    exact of_aliasFor h
  | join i path rel kind =>
    obtain ⟨t, h⟩ := snd_map_eq_ok h
    obtain ⟨e, g₁, hconnects, ⟨hasks, hkind⟩, hsource, htarget⟩ := connects_of_join h
    refine of_connects hconnects ⟨hasks.1, fun houter => ⟨hkind houter, rfl, ⟨g₁, hsource⟩, ?_⟩⟩
    rw [← htarget]
    exact ⟨t.path, g', h⟩
  | crossJoin i source path target v =>
    obtain ⟨_, h⟩ := snd_map_eq_ok h
    obtain ⟨e, _, hconnects, hasks, _⟩ := connects_of_crossJoin h
    refine of_connects hconnects ⟨hasks.1, fun houter => ?_⟩
    rw [show e.kind = .cross from hasks.1] at houter
    cases houter
  | clearJoins i =>
    rw [edit_eq_ok h]
    exact modifyScope fun _ _ => .clear (List.mem_singleton_self i)
  | beginOr i =>
    rw [edit_eq_ok h]
    exact modifyScope fun _ _ => .beginOr (List.mem_singleton_self i)
  | nextOrBranch i =>
    obtain ⟨o, ho, h⟩ := Compile.bind_eq_ok_iff.mp h
    obtain ⟨t, ht, ho⟩ := openBranches_eq_ok ho
    rw [edit_eq_ok h]
    refine modifyScope fun s hs => .nextBranch ?_
    rw [ht] at hs
    exact Option.some.inj hs ▸ ho
  | endOr i =>
    obtain ⟨o, ho, h⟩ := Compile.bind_eq_ok_iff.mp h
    obtain ⟨t, ht, ho⟩ := openBranches_eq_ok ho
    rw [edit_eq_ok h]
    refine modifyScope fun s hs => .closeOr ?_
    rw [ht] at hs
    exact Option.some.inj hs ▸ ho

theorem after (g : JoinGraph) (call : JoinCall) : Moves call g (g.after call) := by
  unfold JoinGraph.after
  split
  · next h => exact of_perform h
  · exact of_sameJoins (.refl g)

end Moves

theorem Holds.after {call : JoinCall} (h : g.Holds id a b) (hcleared : id ∉ call.cleared)
    (hopened : id ∈ call.opened → g.Awaits id a b → g.Joined id a b)
    : (g.after call).Holds id a b := by
  obtain ⟨s, hs, h⟩ := h
  obtain ⟨s', hs', hmoves⟩ := (Moves.after g call).scopes id s hs
  refine ⟨s', hs', hmoves.holds hcleared ?_ h⟩
  intro hid hawaits
  obtain ⟨t, ht, hjoined⟩ := hopened hid ⟨s, hs, hawaits⟩
  obtain rfl := Option.mem_unique ht hs
  exact hjoined

theorem Closed.after {call : JoinCall} (h : g.Closed id) (hopened : id ∉ call.opened)
    : (g.after call).Closed id := by
  cases hs : g.scope? id with
  | none => exact fun s' hs' => ((Moves.after g call).fresh id s' hs hs').1.2
  | some s =>
    obtain ⟨s', hs', hmoves⟩ := (Moves.after g call).scopes id s hs
    intro t ht
    obtain rfl := Option.mem_unique ht hs'
    exact hmoves.openOr_eq_none hopened (h s hs)

/-! ## Runs -/

/--
Somewhere in a run an OR is begun in a scope while a join that is not recorded there waits for the
end of another one.
-/
def Discards (g : JoinGraph) (id : ScopeId) (a b : Alias) : List JoinCall → Prop
  | [] => False
  | call :: calls =>
    (id ∈ call.opened ∧ g.Awaits id a b ∧ ¬ g.Joined id a b)
      ∨ (g.after call).Discards id a b calls

instance decidableDiscards (id : ScopeId) (a b : Alias) :
    (g : JoinGraph) → (calls : List JoinCall) → Decidable (g.Discards id a b calls)
  | _, [] => inferInstanceAs (Decidable False)
  | g, call :: calls =>
    have := decidableDiscards id a b (g.after call) calls
    inferInstanceAs (Decidable ((_ ∧ _ ∧ _) ∨ _))

theorem Holds.afterAll {calls : List JoinCall} (h : g.Holds id a b)
    (hcleared : ∀ call ∈ calls, id ∉ call.cleared) (hkept : ¬ g.Discards id a b calls)
    : (g.afterAll calls).Holds id a b := by
  induction calls generalizing g with
  | nil => exact h
  | cons call calls ih =>
    rw [Discards, not_or] at hkept
    obtain ⟨hstep, hrest⟩ := hkept
    refine ih (h.after (hcleared call List.mem_cons_self) ?_) ?_ hrest
    · intro hid hawaits
      by_contra hjoined
      exact hstep ⟨hid, hawaits, hjoined⟩
    · exact fun c hc => hcleared c (List.mem_cons_of_mem _ hc)

theorem Closed.afterAll {calls : List JoinCall} (h : g.Closed id)
    (hopened : ∀ call ∈ calls, id ∉ call.opened) : (g.afterAll calls).Closed id := by
  induction calls generalizing g with
  | nil => exact h
  | cons call calls ih =>
    apply ih (h.after (hopened call List.mem_cons_self))
    exact fun c hc => hopened c (List.mem_cons_of_mem _ hc)

-- While no OR is open, joins are recorded at once.
theorem edges_of_connects {e : JoinEdge} (h : g.Connects id e g') (hclosed : g.Closed id)
    : ∃ s s' correlated, g.scope? id = some s ∧ g'.scope? id = some s'
        ∧ s'.edges = recordEdge s.edges { e with correlated } := by
  obtain ⟨g₁, s₁, hsame, hs₁, rfl⟩ := h
  cases hs : g.scope? id with
  | none =>
    rw [hsame.scope?_eq_none hs] at hs₁
    cases hs₁
  | some s =>
    obtain ⟨t, ht, hedges, hopen⟩ := hsame.scopes id s hs
    obtain rfl := Option.mem_unique hs₁ ht
    let correlated := s₁.isCorrelated e.source e.target
    refine ⟨s, s₁.record { e with correlated }, correlated, rfl, ?_, ?_⟩
    · unfold connect
      rw [scope?_modifyScope, if_pos rfl, hs₁]
      rfl
    · unfold Scope.record
      rw [hopen, hclosed s hs, hedges]

theorem exists_edge_of_joining {call : JoinCall} {calls : List JoinCall} (h : g.Joining id a b call)
    (hclosed : g.Closed id) (hcleared : ∀ c ∈ calls, id ∉ c.cleared)
    : ∃ s, (g.afterAll (call :: calls)).scope? id = some s
        ∧ ∃ e ∈ s.edges, e.Joins a b ∧ (¬ g.Joined id a b → call.Requests e) := by
  obtain ⟨e, hconnects, hrequests, rfl, rfl⟩ := connects_of_joining h
  obtain ⟨s, s₁, correlated, hs, hs₁, hedges⟩ := edges_of_connects hconnects hclosed
  obtain ⟨s', hs', hprefix⟩ := prefix_edges_afterAll hcleared hs₁
  refine ⟨s', hs', ?_⟩
  rw [hedges] at hprefix
  by_cases hjoined : HasJoin s.edges e.source e.target
  · obtain ⟨f, hf, hjoins⟩ := hjoined
    refine ⟨f, hprefix.subset ((prefix_recordEdge _ _).subset hf), hjoins, fun hnew => ?_⟩
    exact absurd ⟨s, hs, f, hf, hjoins⟩ hnew
  · have hrecord : recordEdge s.edges { e with correlated }
        = s.edges ++ [{ e with correlated }] := by
      unfold recordEdge
      rw [if_neg]
      intro hany
      obtain ⟨f, hf, hpair⟩ := List.any_eq_true.mp hany
      exact hjoined ⟨f, hf, joins_of_samePair hpair (.inl ⟨rfl, rfl⟩)⟩
    refine ⟨{ e with correlated }, ?_, .inl ⟨rfl, rfl⟩, fun _ => ?_⟩
    · apply hprefix.subset
      rw [hrecord]
      exact List.mem_append_right _ (List.mem_singleton_self _)
    · cases call <;> exact hrequests.1

/--
A join that a scope is asked for is among its joins when no OR is open in it any more, however ORs
are begun and ended in between. There is one exception: an OR that is begun while the join waits for
the end of another one.
-/
theorem requests_of_run (joinSyntax : JoinSyntax) (before calls : List JoinCall) (call : JoinCall)
    (id : ScopeId) (a b : Alias)
    : let g := (JoinGraph.new joinSyntax).afterAll before
      let final := g.afterAll (call :: calls)
      g.Joining id a b call → (∀ c ∈ calls, id ∉ c.cleared) → final.Closed id →
      ¬ (g.after call).Discards id a b calls → final.Joined id a b := by
  intro g final hcall hcleared hclosed hkept
  obtain ⟨e, hconnects, _, rfl, rfl⟩ := connects_of_joining hcall
  obtain ⟨s, hs, h⟩ := (holds_of_connects hconnects).afterAll hcleared hkept
  exact ⟨s, hs, h.hasJoin (hclosed s hs)⟩

-- One branch asks for the join, the other one for another join, and then there is a second OR.
theorem requests_of_run_branches
    : let key : ForeignKey :=
        { columns := ["C_ID"], referencedTable := "C", primaryKeyColumns := ["ID"] }
      let rel : Relation :=
        { name := "c", source := { name := "O" }, target := { name := "C" }, foreignKey := key }
      let call : JoinCall := .join .root .root rel .inner
      let calls : List JoinCall :=
        [.nextOrBranch .root, .crossJoin .root { name := "O" } .root { name := "D" } "d",
          .endOr .root, .beginOr .root, .join .root (.ofVariable "d") rel .outer, .endOr .root]
      let g := (JoinGraph.new .sql92).afterAll [.beginOr .root]
      let final := g.afterAll (call :: calls)
      g.Joining .root ⟨0⟩ ⟨1⟩ call ∧ ¬ (g.after call).Discards .root ⟨0⟩ ⟨1⟩ calls
        ∧ final.Joined .root ⟨0⟩ ⟨1⟩ := by
  intro key rel call calls g final
  have hcall : g.Joining .root ⟨0⟩ ⟨1⟩ call := ⟨rfl, ⟨_, rfl⟩, _, _, rfl⟩
  have hcleared : ∀ c ∈ calls, ScopeId.root ∉ c.cleared := by decide +kernel
  have hclosed : final.Closed .root := by decide +kernel
  have hkept : ¬ (g.after call).Discards .root ⟨0⟩ ⟨1⟩ calls := by decide +kernel
  exact ⟨hcall, hkept,
    requests_of_run .sql92 [.beginOr .root] calls call .root ⟨0⟩ ⟨1⟩ hcall hcleared hclosed hkept⟩

-- The second OR is begun inside the first one, and the join that was asked for there is gone.
theorem requests_of_run_discarded
    : let key : ForeignKey :=
        { columns := ["C_ID"], referencedTable := "C", primaryKeyColumns := ["ID"] }
      let rel : Relation :=
        { name := "c", source := { name := "O" }, target := { name := "C" }, foreignKey := key }
      let call : JoinCall := .join .root .root rel .inner
      let calls : List JoinCall := [.beginOr .root, .endOr .root]
      let g := (JoinGraph.new .sql92).afterAll [.beginOr .root]
      g.Joining .root ⟨0⟩ ⟨1⟩ call ∧ (∀ c ∈ calls, ScopeId.root ∉ c.cleared)
        ∧ (g.afterAll (call :: calls)).Closed .root
        ∧ ¬ (g.afterAll (call :: calls)).Joined .root ⟨0⟩ ⟨1⟩ := by
  intro key rel call calls g
  exact ⟨⟨rfl, ⟨_, rfl⟩, _, _, rfl⟩, by decide +kernel, by decide +kernel, by decide +kernel⟩

end JoinGraph

end SqlDialect
