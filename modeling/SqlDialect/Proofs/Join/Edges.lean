import SqlDialect.Proofs.Join.Aliases

/-!
This module contains the theory of the joins that a graph has recorded: in every graph that a run
can reach a scope joins two aliases at most once, keeps what it was told first, and joins only
aliases that it can see.
-/

namespace SqlDialect

/-! ## Stores of joins -/

namespace JoinEdge

theorem promotedKind_ne_outer {e : JoinEdge} (h : e.kind ≠ .outer)
    : e.promotedKind .traditional ≠ .outer := by
  unfold promotedKind
  split <;> simp_all

end JoinEdge

def PairsDiffer (edges : List JoinEdge) : Prop :=
  edges.Pairwise fun e f => ¬ e.samePair f

theorem mem_recordEdge {edges : List JoinEdge} {e f : JoinEdge} (h : f ∈ recordEdge edges e)
    : f ∈ edges ∨ f = e := by
  unfold recordEdge at h
  split at h
  · exact .inl h
  · simpa using h

theorem prefix_recordEdge (edges : List JoinEdge) (e : JoinEdge)
    : edges <+: recordEdge edges e := by
  unfold recordEdge
  split
  · exact List.prefix_refl _
  · exact List.prefix_append ..

theorem PairsDiffer.recordEdge {edges : List JoinEdge} (h : PairsDiffer edges) (e : JoinEdge)
    : PairsDiffer (recordEdge edges e) := by
  unfold SqlDialect.recordEdge
  split
  · exact h
  · next hnew =>
    unfold PairsDiffer
    rw [List.pairwise_append]
    refine ⟨h, by simp, ?_⟩
    simpa using hnew

theorem mem_foldl_recordEdge {new edges : List JoinEdge} {f : JoinEdge}
    (h : f ∈ new.foldl recordEdge edges) : f ∈ edges ∨ f ∈ new := by
  induction new generalizing edges with
  | nil => exact .inl h
  | cons e new ih =>
    cases ih h with
    | inl hf =>
      obtain hf | rfl := mem_recordEdge hf
      · exact .inl hf
      · simp
    | inr hf => exact .inr (List.mem_cons_of_mem _ hf)

theorem prefix_foldl_recordEdge (new edges : List JoinEdge)
    : edges <+: new.foldl recordEdge edges := by
  induction new generalizing edges with
  | nil => exact List.prefix_refl _
  | cons e new ih => exact (prefix_recordEdge edges e).trans (ih _)

theorem PairsDiffer.foldl_recordEdge {edges : List JoinEdge} (h : PairsDiffer edges)
    (new : List JoinEdge) : PairsDiffer (new.foldl SqlDialect.recordEdge edges) := by
  induction new generalizing edges with
  | nil => exact h
  | cons e new ih => exact ih (h.recordEdge e)

theorem OrBranches.mem_merge {b : OrBranches} {joinSyntax : JoinSyntax} {f : JoinEdge}
    (h : f ∈ b.merge joinSyntax)
    : ∃ branch ∈ b.all, ∃ e ∈ branch, f = e ∨ f = { e with kind := e.promotedKind joinSyntax } := by
  unfold merge at h
  obtain ⟨e, he, hf⟩ := List.mem_map.mp h
  obtain he | he := mem_foldl_recordEdge he
  · cases he
  · obtain ⟨branch, hbranch, he⟩ := List.mem_flatten.mp he
    refine ⟨branch, hbranch, e, he, ?_⟩
    split at hf
    · exact .inl hf.symm
    · exact .inr hf.symm

namespace Scope

/--
All lists of joins that a scope holds: its joins, and those of each branch of an OR that is open.
-/
def stores (s : Scope) : List (List JoinEdge) := s.edges :: (s.openOr.map (·.all)).getD []

def Sound (valid : JoinEdge → Prop) (s : Scope) : Prop :=
  ∀ store ∈ s.stores, PairsDiffer store ∧ ∀ e ∈ store, valid e

inductive JoinChange (valid : JoinEdge → Prop) (cleared : Prop) (s : Scope) : Scope → Prop where
  | keep {s' : Scope} (hedges : s'.edges = s.edges) (hopen : s'.openOr = s.openOr) :
      JoinChange valid cleared s s'
  | record {e : JoinEdge} (he : valid e) : JoinChange valid cleared s (s.record e)
  | clear (h : cleared) : JoinChange valid cleared s { s with edges := [] }
  | beginOr : JoinChange valid cleared s { s with openOr := some {} }
  | nextBranch {b : OrBranches} (hb : s.openOr = some b) :
      JoinChange valid cleared s { s with openOr := some { earlier := b.all, current := [] } }
  | closeOr {b : OrBranches} (hb : s.openOr = some b) : JoinChange valid cleared s (s.closeOr b)

namespace JoinChange

variable {valid : JoinEdge → Prop} {cleared : Prop} {s s' : Scope}

theorem prefix_edges (h : JoinChange valid cleared s s') (hcleared : ¬ cleared)
    : s.edges <+: s'.edges := by
  cases h with
  | keep hedges hopen => exact hedges ▸ List.prefix_refl _
  | record he =>
    unfold Scope.record
    split
    · exact List.prefix_refl _
    · apply prefix_recordEdge
  | clear h => exact absurd h hcleared
  | beginOr => exact List.prefix_refl _
  | nextBranch hb => exact List.prefix_refl _
  | closeOr hb => apply prefix_foldl_recordEdge

theorem mem_stores_record {e : JoinEdge} {store : List JoinEdge} (h : store ∈ (s.record e).stores)
    : ∃ old ∈ s.stores, store = old ∨ store = recordEdge old e := by
  unfold Scope.record at h
  split at h
  · next b hb =>
    simp only [stores, hb, OrBranches.all, Option.map_some, Option.getD_some] at h ⊢
    grind
  · next hb =>
    simp only [stores, hb] at h ⊢
    grind

theorem sound_record {e : JoinEdge} (hs : s.Sound valid) (he : valid e)
    : (s.record e).Sound valid := by
  intro store hstore
  obtain ⟨old, hold, rfl | rfl⟩ := mem_stores_record hstore
  · exact hs _ hold
  · obtain ⟨hdiffer, hall⟩ := hs old hold
    refine ⟨hdiffer.recordEdge _, ?_⟩
    intro f hf
    obtain hf | rfl := mem_recordEdge hf
    · exact hall f hf
    · exact he

theorem sound (h : JoinChange valid cleared s s') (hs : s.Sound valid)
    (hpromoted : ∀ e, valid e → valid { e with kind := e.promotedKind s.joinSyntax })
    : s'.Sound valid := by
  have hnil : PairsDiffer [] ∧ ∀ e ∈ ([] : List JoinEdge), valid e := by simp [PairsDiffer]
  have hedges := hs s.edges (by simp [stores])
  intro store hstore
  cases h with
  | keep hsame hopen =>
    apply hs
    unfold stores at hstore ⊢
    rw [← hsame, ← hopen]
    exact hstore
  | record he => exact sound_record hs he store hstore
  | clear h =>
    have hcases : store = [] ∨ store ∈ (s.openOr.map (·.all)).getD [] := by
      simpa [stores] using hstore
    obtain rfl | hbranch := hcases
    · exact hnil
    · exact hs store (List.mem_cons_of_mem _ hbranch)
  | beginOr =>
    have hcases : store = s.edges ∨ store = [] := by simpa [stores, OrBranches.all] using hstore
    obtain rfl | rfl := hcases
    · exact hedges
    · exact hnil
  | @nextBranch b hb =>
    have hcases : store ∈ s.stores ∨ store = [] := by
      simpa [stores, OrBranches.all, hb, or_assoc] using hstore
    obtain hold | rfl := hcases
    · exact hs store hold
    · exact hnil
  | @closeOr b hb =>
    obtain rfl : store = (b.merge s.joinSyntax).foldl recordEdge s.edges := by
      simpa [stores, Scope.closeOr] using hstore
    refine ⟨hedges.1.foldl_recordEdge _, ?_⟩
    intro f hf
    obtain hf | hf := mem_foldl_recordEdge hf
    · exact hedges.2 f hf
    · obtain ⟨branch, hbranch, e, he, hf⟩ := OrBranches.mem_merge hf
      have hmem : branch ∈ s.stores := by simp [stores, hb, hbranch]
      have hvalid := (hs branch hmem).2 e he
      obtain rfl | rfl := hf
      · exact hvalid
      · exact hpromoted e hvalid

end JoinChange

end Scope

def JoinCall.cleared : JoinCall → List ScopeId
  | .clearJoins id => [id]
  | _ => []

namespace JoinGraph

variable {g g' : JoinGraph} {id : ScopeId} {s s' : Scope}

/-! ## Valid joins -/

def Sees (g : JoinGraph) (id : ScopeId) (s : Scope) (table : String) (a : Alias) : Prop :=
  ∃ i ∈ id :: s.enclosing, ∃ t, g.scope? i = some t ∧ ∃ e ∈ t.entries, e.table = table ∧ e.ref = a

theorem Sees.extends {table : String} {a : Alias} (h : g.Sees id s table a) (hext : g.Extends g')
    (hs : g.scope? id = some s) (hs' : g'.scope? id = some s') : g'.Sees id s' table a := by
  obtain ⟨i, hi, t, ht, e, he, hkey⟩ := h
  obtain ⟨t', ht', _, hentries⟩ := hext.scopes i t ht
  obtain ⟨s₁, hs₁, henclosing, _⟩ := hext.scopes id s hs
  rw [hs'] at hs₁
  obtain rfl := Option.some.inj hs₁
  exact ⟨i, henclosing ▸ hi, t', ht', e, hentries.subset he, hkey⟩

theorem Sees.mem_aliases_of_root {table : String} {a : Alias} (h : g.Sees id s table a)
    (hs : g.scope? id = some s) (hroot : s.enclosing = []) : a ∈ s.aliases := by
  obtain ⟨i, hi, t, ht, e, he, -, rfl⟩ := h
  rw [hroot, List.mem_singleton] at hi
  subst hi
  rw [hs] at ht
  obtain rfl := Option.some.inj ht
  exact List.mem_map_of_mem he

theorem Sees.exists_owns {table : String} {a : Alias} (h : g.Sees id s table a)
    : ∃ i ∈ id :: s.enclosing, ∃ t, g.scope? i = some t ∧ t.owns a := by
  obtain ⟨i, hi, t, ht, e, he, -, rfl⟩ := h
  refine ⟨i, hi, t, ht, ?_⟩
  rw [Scope.owns, List.contains_iff_mem]
  exact List.mem_map_of_mem he

theorem Sees.table?_eq {table : String} {a : Alias} (hg : g.WellFormed) (h : g.Sees id s table a)
    : g.table? a = some table := by
  obtain ⟨i, _, t, ht, e, he, rfl, rfl⟩ := h
  exact hg.table_eq i t ht e he

theorem sees_of_lookup? {i : ScopeId} {t : Scope} {path : JoinPath} {table : String} {a : Alias}
    (hi : i ∈ id :: s.enclosing) (ht : g.scope? i = some t) (h : t.lookup? path table = some a)
    : g.Sees id s table a := by
  unfold Scope.lookup? at h
  obtain ⟨e, he, rfl⟩ := Option.map_eq_some_iff.mp h
  have hkey : e.path = path ∧ e.table = table := by simpa using List.find?_some he
  exact ⟨i, hi, t, ht, e, List.mem_of_find?_eq_some he, hkey.2, rfl⟩

theorem sees_of_findAlias? {path : JoinPath} {table : String} {a : Alias}
    (hs : g.scope? id = some s) (h : g.findAlias? id s table path = some a)
    : g.Sees id s table a := by
  unfold findAlias? at h
  rw [Option.or_eq_some_iff] at h
  obtain h | ⟨_, h⟩ := h
  · exact sees_of_lookup? List.mem_cons_self hs h
  · split at h
    · unfold Scope.occurrence? at h
      obtain ⟨e, he, rfl⟩ := Option.map_eq_some_iff.mp h
      have hkey : e.table = table := by simpa using List.find?_some he
      exact ⟨id, List.mem_cons_self, s, hs, e, List.mem_of_find?_eq_some he, hkey, rfl⟩
    · obtain ⟨i, hi, h⟩ := List.exists_of_findSome?_eq_some h
      obtain ⟨t, ht, h⟩ := Option.bind_eq_some_iff.mp h
      refine sees_of_lookup? ?_ ht h
      rw [List.mem_append, Option.mem_toList] at hi
      obtain hi | hi := hi
      · obtain ⟨_, _, _, hmem, _⟩ := home?_eq_some hi
        exact hmem
      · exact List.mem_cons_of_mem _ hi

theorem sees_of_requireAlias {table : Table} {path : JoinPath} {a : Alias}
    (h : g.requireAlias id table path = .ok (a, g')) (hs' : g'.scope? id = some s')
    : g'.Sees id s' table.fullName a := by
  rw [requireAlias_eq_ok_iff] at h
  obtain ⟨s, hs, ⟨hfound, rfl⟩ | ⟨hnew, halloc⟩⟩ := h
  · rw [hs] at hs'
    obtain rfl := Option.some.inj hs'
    exact sees_of_findAlias? hs hfound
  · obtain ⟨t, ht, _⟩ := lookup?_owner_eq_none hs hnew
    have hext := Extends.allocate g ((g.home? id s path).getD id) path table.fullName
    have howner := scope?_allocate g ((g.home? id s path).getD id) ((g.home? id s path).getD id)
      path table.fullName
    rw [halloc] at hext howner
    rw [if_pos rfl, ht] at howner
    obtain rfl : ⟨g.aliasCount⟩ = a := congrArg Prod.fst halloc
    obtain ⟨_, hs₁, henclosing, _⟩ := hext.scopes id s hs
    rw [hs'] at hs₁
    obtain rfl := Option.some.inj hs₁
    refine ⟨_, ?_, _, howner, _, List.mem_append_right _ (List.mem_singleton_self _), rfl, rfl⟩
    rw [henclosing]
    exact owner_mem g id s path

structure ValidEdge (g : JoinGraph) (id : ScopeId) (s : Scope) (e : JoinEdge) : Prop where
  source : g.Sees id s e.sourceTable e.source
  target : g.Sees id s e.targetTable e.target
  correlated : e.correlated = true ↔ ¬ (e.source ∈ s.aliases ∧ e.target ∈ s.aliases)

-- The scopes share the aliases out among themselves, so two scopes have none in common.
theorem WellFormed.eq_of_mem_aliases (hg : g.WellFormed) {i j : ScopeId} {t u : Scope}
    (ht : g.scope? i = some t) (hu : g.scope? j = some u) {a : Alias} (hat : a ∈ t.aliases)
    (hau : a ∈ u.aliases) : i = j := by
  have hnodup : (g.scopes.flatMap (·.aliases)).Nodup := by
    apply hg.listed.nodup_iff.mpr
    apply List.Nodup.map
    · intro m n hmn
      exact Alias.mk.inj hmn
    · exact List.nodup_range
  rw [List.nodup_flatMap] at hnodup
  unfold scope? at ht hu
  obtain ⟨hi, rfl⟩ := List.getElem?_eq_some_iff.mp ht
  obtain ⟨hj, rfl⟩ := List.getElem?_eq_some_iff.mp hu
  have hdisjoint := List.pairwise_iff_getElem.mp hnodup.2
  have hindex : i.index = j.index := by
    by_contra hne
    obtain hlt | hlt := Nat.lt_or_gt_of_ne hne
    · exact hdisjoint _ _ hi hj hlt hat hau
    · exact hdisjoint _ _ hj hi hlt hau hat
  cases i
  cases j
  simpa using hindex

theorem Sees.mem_aliases_iff {table : String} {a : Alias} (h : g.Sees id s table a)
    (hext : g.Extends g') (hg' : g'.WellFormed) (hs : g.scope? id = some s)
    (hs' : g'.scope? id = some s') : a ∈ s'.aliases ↔ a ∈ s.aliases := by
  obtain ⟨i, _, t, ht, e, he, -, rfl⟩ := h
  have hmem : e.ref ∈ t.aliases := List.mem_map_of_mem he
  obtain ⟨t', ht', _, hentries⟩ := hext.scopes i t ht
  obtain ⟨s₁, hs₁, _, hentries₁⟩ := hext.scopes id s hs
  rw [hs'] at hs₁
  obtain rfl := Option.some.inj hs₁
  constructor
  · intro ha
    have hmem' : e.ref ∈ t'.aliases := List.mem_map_of_mem (hentries.subset he)
    obtain rfl := hg'.eq_of_mem_aliases hs' ht' ha hmem'
    rw [hs] at ht
    obtain rfl := Option.some.inj ht
    exact hmem
  · intro ha
    exact (hentries₁.map _).subset ha

theorem ValidEdge.extends {e : JoinEdge} (h : g.ValidEdge id s e) (hext : g.Extends g')
    (hg' : g'.WellFormed) (hs : g.scope? id = some s) (hs' : g'.scope? id = some s')
    : g'.ValidEdge id s' e := by
  refine ⟨h.source.extends hext hs hs', h.target.extends hext hs hs', ?_⟩
  rw [h.source.mem_aliases_iff hext hg' hs hs', h.target.mem_aliases_iff hext hg' hs hs']
  exact h.correlated

theorem isCorrelated_iff {e : JoinEdge} (hs : g.scope? id = some s)
    (hsource : g.Sees id s e.sourceTable e.source) (htarget : g.Sees id s e.targetTable e.target)
    : s.isCorrelated e.source e.target = true
        ↔
      ¬ (e.source ∈ s.aliases ∧ e.target ∈ s.aliases) := by
  cases henclosing : s.enclosing with
  | nil =>
    have h₁ := hsource.mem_aliases_of_root hs henclosing
    have h₂ := htarget.mem_aliases_of_root hs henclosing
    simp [Scope.isCorrelated, Scope.parent?, henclosing, h₁, h₂]
  | cons p ps =>
    rw [not_and_or]
    simp [Scope.isCorrelated, Scope.parent?, henclosing, Scope.owns]

/-! ## Steps -/

def Recordable (g : JoinGraph) (id : ScopeId) (s : Scope) (e : JoinEdge) : Prop :=
  g.ValidEdge id s e ∧ (s.joinSyntax = .traditional → e.kind ≠ .outer)

inductive EdgeStep (cleared : List ScopeId) : JoinGraph → JoinGraph → Prop where
  | nest {g : JoinGraph} {parent : ScopeId} {outer : Scope} (joinSyntax : JoinSyntax)
      (hparent : g.scope? parent = some outer) :
      EdgeStep cleared g
        { g with
          scopes := g.scopes ++ [{ enclosing := parent :: outer.enclosing, joinSyntax }] }
  | allocate {g : JoinGraph} {id : ScopeId} {s : Scope} {path : JoinPath} {table : String}
      (hscope : g.scope? id = some s) (hnew : g.findAlias? id s table path = none) :
      EdgeStep cleared g (g.allocate ((g.home? id s path).getD id) path table).2
  | edit {g : JoinGraph} (id : ScopeId) {f : Scope → Scope}
      (hf : ∀ s, (f s).enclosing = s.enclosing ∧ (f s).entries = s.entries
        ∧ (f s).joinSyntax = s.joinSyntax)
      (hchange : ∀ s, g.scope? id = some s →
        s.JoinChange (g.Recordable id s) (id ∈ cleared) (f s)) :
      EdgeStep cleared g (g.modifyScope id f)

abbrev EdgeSteps (cleared : List ScopeId) : JoinGraph → JoinGraph → Prop :=
  Relation.ReflTransGen (EdgeStep cleared)

theorem Recordable.extends {e : JoinEdge} (h : g.Recordable id s e) (hext : g.Extends g')
    (hg' : g'.WellFormed) (hs : g.scope? id = some s) (hs' : g'.scope? id = some s')
    (hwritten : s'.joinSyntax = s.joinSyntax) : g'.Recordable id s' e :=
  ⟨h.1.extends hext hg' hs hs', hwritten ▸ h.2⟩

theorem Recordable.promoted {e : JoinEdge} (h : g.Recordable id s e)
    : g.Recordable id s { e with kind := e.promotedKind s.joinSyntax } := by
  obtain ⟨⟨hsource, htarget, hcorrelated⟩, hkind⟩ := h
  refine ⟨⟨hsource, htarget, hcorrelated⟩, ?_⟩
  intro hwritten
  rw [hwritten]
  exact JoinEdge.promotedKind_ne_outer (hkind hwritten)

theorem Extends.of_edgeStep {cleared : List ScopeId} (h : EdgeStep cleared g g')
    : g.Extends g' := by
  cases h with
  | nest joinSyntax hparent => apply Extends.nest
  | allocate hscope hnew => apply Extends.allocate
  | edit id hf hchange =>
    apply Extends.modifyScope
    intro s
    rw [(hf s).2.1]
    exact ⟨(hf s).1, List.prefix_refl _⟩

theorem WellFormed.edgeStep {cleared : List ScopeId} (h : EdgeStep cleared g g')
    (hg : g.WellFormed) : g'.WellFormed := by
  cases h with
  | nest joinSyntax hparent => exact hg.nest joinSyntax hparent
  | allocate hscope hnew =>
    obtain ⟨t, ht, hfree⟩ := lookup?_owner_eq_none hscope hnew
    exact hg.allocate ht hfree
  | edit id hf hchange => exact hg.modifyScope id fun s => ⟨(hf s).1, (hf s).2.1⟩

def KeepsEdges (cleared : List ScopeId) (g g' : JoinGraph) : Prop :=
  ∀ id s, g.scope? id = some s →
    ∃ s', g'.scope? id = some s' ∧ s'.joinSyntax = s.joinSyntax
      ∧ (id ∉ cleared → s.edges <+: s'.edges)

namespace KeepsEdges

variable {cleared : List ScopeId}

theorem refl (g : JoinGraph) : KeepsEdges cleared g g :=
  fun _ s hs => ⟨s, hs, rfl, fun _ => List.prefix_refl _⟩

theorem trans {g'' : JoinGraph} (h : KeepsEdges cleared g g') (h' : KeepsEdges cleared g' g'')
    : KeepsEdges cleared g g'' := by
  intro id s hs
  obtain ⟨s', hs', hwritten, hedges⟩ := h id s hs
  obtain ⟨s'', hs'', hwritten', hedges'⟩ := h' id s' hs'
  exact ⟨s'', hs'', hwritten'.trans hwritten, fun hid => (hedges hid).trans (hedges' hid)⟩

theorem of_step (h : EdgeStep cleared g g') : KeepsEdges cleared g g' := by
  intro j s hs
  cases h with
  | nest joinSyntax hparent =>
    have := lt_length_of_scope? hs
    refine ⟨s, ?_, rfl, fun _ => List.prefix_refl _⟩
    rw [scope?_nest, if_neg (by omega)]
    exact hs
  | allocate hscope hnew =>
    rw [scope?_allocate, hs]
    split
    · exact ⟨_, rfl, rfl, fun _ => List.prefix_refl _⟩
    · exact ⟨s, rfl, rfl, fun _ => List.prefix_refl _⟩
  | @edit id f hf hchange =>
    obtain ⟨t, ht, rfl | ⟨rfl, rfl⟩⟩ := exists_scope?_modifyScope (i := id) (f := f) hs
    · exact ⟨t, ht, rfl, fun _ => List.prefix_refl _⟩
    · exact ⟨f s, ht, (hf s).2.2, fun hid => (hchange s hs).prefix_edges hid⟩

end KeepsEdges

structure EdgesSound (g : JoinGraph) : Prop where
  wellFormed : g.WellFormed
  sound : ∀ id s, g.scope? id = some s → s.Sound (g.Recordable id s)

namespace EdgesSound

theorem new (joinSyntax : JoinSyntax) : (JoinGraph.new joinSyntax).EdgesSound where
  wellFormed := .new joinSyntax
  sound := by
    intro id s hs
    obtain rfl : s = { joinSyntax } := by
      simpa [JoinGraph.new] using mem_scopes_of_scope? hs
    simp [Scope.Sound, Scope.stores, PairsDiffer]

theorem step {cleared : List ScopeId} (hstep : EdgeStep cleared g g') (h : g.EdgesSound)
    : g'.EdgesSound := by
  have hext := Extends.of_edgeStep hstep
  have hg' := h.wellFormed.edgeStep hstep
  -- What a scope could record before the step it can record afterwards.
  have hkeep : ∀ {j t t'}, g.scope? j = some t → g'.scope? j = some t' → t'.stores = t.stores →
      t'.joinSyntax = t.joinSyntax → t'.Sound (g'.Recordable j t') := by
    intro j t t' ht ht' hstores hwritten store hstore
    rw [hstores] at hstore
    obtain ⟨hdiffer, hall⟩ := h.sound j t ht store hstore
    exact ⟨hdiffer, fun e he => (hall e he).extends hext hg' ht ht' hwritten⟩
  refine ⟨hg', ?_⟩
  intro j t' ht'
  cases hstep with
  | nest joinSyntax hparent =>
    have ht := ht'
    rw [scope?_nest] at ht
    split at ht
    · cases ht
      simp [Scope.Sound, Scope.stores, PairsDiffer]
    · exact hkeep ht ht' rfl rfl
  | allocate hscope hnew =>
    obtain ⟨t, ht, rfl | ⟨_, rfl⟩⟩ := scope?_allocate_eq_some ht'
    · exact hkeep ht ht' rfl rfl
    · exact hkeep ht ht' rfl rfl
  | @edit id f hf hchange =>
    obtain ⟨t, ht, rfl | ⟨rfl, rfl⟩⟩ := scope?_modifyScope_eq_some ht'
    · exact hkeep ht ht' rfl rfl
    · intro store hstore
      have hsound := (hchange t ht).sound (h.sound _ t ht) fun _ => Recordable.promoted
      obtain ⟨hdiffer, hall⟩ := hsound store hstore
      exact ⟨hdiffer, fun e he => (hall e he).extends hext hg' ht ht' (hf t).2.2⟩

end EdgesSound

/-! ## Runs -/

namespace EdgeSteps

variable {cleared : List ScopeId}

theorem toExtends (h : EdgeSteps cleared g g') : g.Extends g' := by
  induction h with
  | refl => exact .refl g
  | tail _ hlast ih => exact ih.trans (.of_edgeStep hlast)

theorem keepsEdges (h : EdgeSteps cleared g g') : KeepsEdges cleared g g' := by
  induction h with
  | refl => exact .refl g
  | tail _ hlast ih => exact ih.trans (.of_step hlast)

theorem edgesSound (h : EdgeSteps cleared g g') (hg : g.EdgesSound) : g'.EdgesSound := by
  induction h with
  | refl => exact hg
  | tail _ hlast ih => exact ih.step hlast

theorem of_edit {f : Scope → Scope} (h : g.edit id f = .ok g')
    (hf : ∀ s, (f s).enclosing = s.enclosing ∧ (f s).entries = s.entries
      ∧ (f s).joinSyntax = s.joinSyntax)
    (hchange : ∀ s, g.scope? id = some s →
      s.JoinChange (g.Recordable id s) (id ∈ cleared) (f s))
    : EdgeSteps cleared g g' := by
  rw [edit_eq_ok h]
  apply Relation.ReflTransGen.single
  exact .edit id hf hchange

theorem of_requireAlias {table : Table} {path : JoinPath} {a : Alias}
    (h : g.requireAlias id table path = .ok (a, g')) : EdgeSteps cleared g g' := by
  rw [requireAlias_eq_ok_iff] at h
  obtain ⟨s, hs, ⟨_, rfl⟩ | ⟨hnew, halloc⟩⟩ := h
  · exact .refl
  · have hg' : g' = (g.allocate ((g.home? id s path).getD id) path table.fullName).2 := by
      rw [halloc]
    rw [hg']
    apply Relation.ReflTransGen.single
    exact .allocate hs hnew

theorem connect {e : JoinEdge} (hs : g.scope? id = some s)
    (hsource : g.Sees id s e.sourceTable e.source) (htarget : g.Sees id s e.targetTable e.target)
    (hkind : s.joinSyntax = .traditional → e.kind ≠ .outer)
    : EdgeSteps cleared g (g.connect id e) := by
  apply Relation.ReflTransGen.single
  apply EdgeStep.edit
  · intro t
    unfold Scope.record
    split <;> simp
  · intro t ht
    rw [hs] at ht
    obtain rfl := Option.some.inj ht
    apply Scope.JoinChange.record
    exact ⟨⟨hsource, htarget, isCorrelated_iff hs hsource htarget⟩, hkind⟩

theorem of_subselect {parent inner : ScopeId} (h : g.subselect parent = .ok (inner, g'))
    : EdgeSteps cleared g g' := by
  unfold subselect at h
  rw [Compile.bind_eq_ok_iff] at h
  obtain ⟨outer, houter, h⟩ := h
  rw [scope_eq_ok_iff] at houter
  simp only [Compile.pure_eq_ok, Except.ok.injEq, Prod.mk.injEq] at h
  obtain ⟨_, rfl⟩ := h
  apply Relation.ReflTransGen.single
  exact .nest _ houter

theorem of_aliasFor {table : Table} {path : JoinPath} {create : Bool} {a : Option Alias}
    (h : g.aliasFor id table path create = .ok (a, g')) : EdgeSteps cleared g g' := by
  unfold aliasFor at h
  split at h
  · simp only [Compile.bind_eq_ok_iff, Prod.exists] at h
    obtain ⟨b, g₁, hrequire, h⟩ := h
    simp only [Compile.pure_eq_ok, Except.ok.injEq, Prod.mk.injEq] at h
    obtain ⟨_, rfl⟩ := h
    exact of_requireAlias hrequire
  · rw [Compile.bind_eq_ok_iff] at h
    obtain ⟨b, _, h⟩ := h
    simp only [Compile.pure_eq_ok, Except.ok.injEq, Prod.mk.injEq] at h
    obtain ⟨_, rfl⟩ := h
    exact .refl

-- Between the request for its second end and the moment when a join is recorded, its scope may
-- change in other respects.
theorem of_ends {g₁ g₂ g₃ : JoinGraph} {source target : Table} {path path' : JoinPath}
    {e : JoinEdge}
    (hs : g.scope? id = some s) (hsource : g.requireAlias id source path = .ok (e.source, g₁))
    (htarget : g₁.requireAlias id target path' = .ok (e.target, g₂))
    (hbetween : EdgeSteps cleared g₂ g₃)
    (htables : e.sourceTable = source.fullName ∧ e.targetTable = target.fullName)
    (hkind : s.joinSyntax = .traditional → e.kind ≠ .outer)
    : EdgeSteps cleared g (g₃.connect id e) := by
  have h₁ : EdgeSteps cleared g g₁ := of_requireAlias hsource
  have h₂ : EdgeSteps cleared g₁ g₂ := of_requireAlias htarget
  obtain ⟨s₁, hs₁, hwritten₁, _⟩ := h₁.keepsEdges id s hs
  obtain ⟨s₂, hs₂, _⟩ := h₂.keepsEdges id s₁ hs₁
  have h₃ : EdgeSteps cleared g₁ g₃ := h₂.trans hbetween
  obtain ⟨s₃, hs₃, hwritten₃, _⟩ := h₃.keepsEdges id s₁ hs₁
  have hsees₁ : g₃.Sees id s₃ e.sourceTable e.source := by
    rw [htables.1]
    exact (sees_of_requireAlias hsource hs₁).extends h₃.toExtends hs₁ hs₃
  have hsees₂ : g₃.Sees id s₃ e.targetTable e.target := by
    rw [htables.2]
    exact (sees_of_requireAlias htarget hs₂).extends hbetween.toExtends hs₂ hs₃
  refine (h₁.trans h₃).trans (connect hs₃ hsees₁ hsees₂ ?_)
  rw [hwritten₃, hwritten₁]
  exact hkind

theorem of_join {path : JoinPath} {rel : Relation} {kind : JoinKind} {t : JoinedTable}
    (h : g.join id path rel kind = .ok (t, g')) : EdgeSteps cleared g g' := by
  unfold join at h
  simp only [Compile.bind_eq_ok_iff, Prod.exists] at h
  obtain ⟨s, hs, source, g₁, hsource, target, g₂, htarget, h⟩ := h
  rw [scope_eq_ok_iff] at hs
  simp only [Compile.pure_eq_ok, Except.ok.injEq, Prod.mk.injEq] at h
  obtain ⟨_, rfl⟩ := h
  refine of_ends hs hsource htarget ?_ ⟨rfl, rfl⟩ ?_
  · split
    · apply Relation.ReflTransGen.single
      exact .edit id (fun _ => ⟨rfl, rfl, rfl⟩) fun _ _ => .keep rfl rfl
    · exact .refl
  · intro hwritten
    dsimp only
    split <;> simp_all

theorem of_crossJoin {source target : Table} {path : JoinPath} {v : String} {t : JoinedTable}
    (h : g.crossJoin id source path target v = .ok (t, g')) : EdgeSteps cleared g g' := by
  unfold crossJoin at h
  simp only [Compile.bind_eq_ok_iff, Prod.exists] at h
  obtain ⟨g₁, hedit, a, g₂, hsource, b, g₃, htarget, h⟩ := h
  simp only [Compile.pure_eq_ok, Except.ok.injEq, Prod.mk.injEq] at h
  obtain ⟨_, rfl⟩ := h
  have hsteps : EdgeSteps cleared g g₁ :=
    of_edit hedit (fun _ => ⟨rfl, rfl, rfl⟩) fun _ _ => .keep rfl rfl
  obtain ⟨s₁, hs₁, _⟩ := requireAlias_eq_ok_iff.mp hsource
  exact hsteps.trans (of_ends hs₁ hsource htarget .refl ⟨rfl, rfl⟩ (by simp))

end EdgeSteps

theorem openBranches_eq_ok {b : OrBranches} (h : g.openBranches id = .ok b)
    : ∃ s, g.scope? id = some s ∧ s.openOr = some b := by
  unfold openBranches at h
  rw [Compile.bind_eq_ok_iff] at h
  obtain ⟨s, hs, h⟩ := h
  rw [scope_eq_ok_iff] at hs
  refine ⟨s, hs, ?_⟩
  split at h
  · next hopen =>
    rw [hopen]
    simpa using h
  · cases h

theorem EdgeSteps.of_perform {call : JoinCall} (h : g.perform call = .ok g')
    : EdgeSteps call.cleared g g' := by
  cases call with
  | subselect parent =>
    obtain ⟨_, h⟩ := snd_map_eq_ok h
    exact of_subselect h
  | declareVariable id v =>
    exact of_edit h (fun _ => ⟨rfl, rfl, rfl⟩) fun _ _ => .keep rfl rfl
  | aliasFor id table path create =>
    obtain ⟨_, h⟩ := snd_map_eq_ok h
    exact of_aliasFor h
  | join id path rel kind =>
    obtain ⟨_, h⟩ := snd_map_eq_ok h
    exact of_join h
  | crossJoin id source path target v =>
    obtain ⟨_, h⟩ := snd_map_eq_ok h
    exact of_crossJoin h
  | clearJoins id =>
    exact of_edit h (fun _ => ⟨rfl, rfl, rfl⟩) fun _ _ => .clear (by simp [JoinCall.cleared])
  | beginOr id => exact of_edit h (fun _ => ⟨rfl, rfl, rfl⟩) fun _ _ => .beginOr
  | nextOrBranch id =>
    obtain ⟨b, hb, h⟩ := Compile.bind_eq_ok_iff.mp h
    obtain ⟨s, hs, hopen⟩ := openBranches_eq_ok hb
    refine of_edit h (fun _ => ⟨rfl, rfl, rfl⟩) fun t ht => .nextBranch ?_
    rw [hs] at ht
    exact Option.some.inj ht ▸ hopen
  | endOr id =>
    obtain ⟨b, hb, h⟩ := Compile.bind_eq_ok_iff.mp h
    obtain ⟨s, hs, hopen⟩ := openBranches_eq_ok hb
    refine of_edit h (fun _ => ⟨rfl, rfl, rfl⟩) fun t ht => .closeOr ?_
    rw [hs] at ht
    exact Option.some.inj ht ▸ hopen

theorem EdgeSteps.after (g : JoinGraph) (call : JoinCall)
    : EdgeSteps call.cleared g (g.after call) := by
  unfold JoinGraph.after
  split
  · next h => exact of_perform h
  · exact .refl

theorem EdgesSound.afterAll (h : g.EdgesSound) (calls : List JoinCall)
    : (g.afterAll calls).EdgesSound := by
  induction calls generalizing g with
  | nil => exact h
  | cons call calls ih => exact ih ((EdgeSteps.after g call).edgesSound h)

theorem prefix_edges_afterAll {calls : List JoinCall} (hcalls : ∀ call ∈ calls, id ∉ call.cleared)
    (hs : g.scope? id = some s)
    : ∃ s', (g.afterAll calls).scope? id = some s' ∧ s.edges <+: s'.edges := by
  induction calls generalizing g s with
  | nil => exact ⟨s, hs, List.prefix_refl _⟩
  | cons call calls ih =>
    obtain ⟨s₁, hs₁, _, hedges₁⟩ := (EdgeSteps.after g call).keepsEdges id s hs
    obtain ⟨s', hs', hedges⟩ := ih (fun c hc => hcalls c (List.mem_cons_of_mem _ hc)) hs₁
    exact ⟨s', hs', (hedges₁ (hcalls call List.mem_cons_self)).trans hedges⟩

theorem edges_of_run (joinSyntax : JoinSyntax) (calls : List JoinCall) (id : ScopeId) (s : Scope)
    : let g := (JoinGraph.new joinSyntax).afterAll calls
      g.scope? id = some s →
        (∀ store ∈ s.stores, store.Pairwise fun e f => ¬ e.samePair f)
        ∧ (∀ later, (∀ call ∈ later, id ∉ call.cleared) →
            ∃ s', (g.afterAll later).scope? id = some s' ∧ s.edges <+: s'.edges)
        ∧ ∀ store ∈ s.stores, ∀ e ∈ store,
            (∀ a ∈ [e.source, e.target],
              ∃ i ∈ id :: s.enclosing, ∃ t, g.scope? i = some t ∧ t.owns a)
            ∧ g.table? e.source = some e.sourceTable
            ∧ g.table? e.target = some e.targetTable
            ∧ (∀ later s', (g.afterAll later).scope? id = some s' →
                (e.correlated ↔ ¬ (s'.owns e.source ∧ s'.owns e.target)))
            ∧ (s.joinSyntax = .traditional → e.kind ≠ .outer) := by
  intro g hs
  have hg : g.EdgesSound := (EdgesSound.new joinSyntax).afterAll calls
  refine ⟨fun store hstore => (hg.sound id s hs store hstore).1, ?_, ?_⟩
  · intro later hlater
    exact prefix_edges_afterAll hlater hs
  · intro store hstore e he
    obtain ⟨hvalid, hkind⟩ := (hg.sound id s hs store hstore).2 e he
    refine ⟨?_, hvalid.source.table?_eq hg.wellFormed, hvalid.target.table?_eq hg.wellFormed,
      ?_, hkind⟩
    · intro a ha
      obtain rfl | rfl : a = e.source ∨ a = e.target := by simpa using ha
      · exact hvalid.source.exists_owns
      · exact hvalid.target.exists_owns
    · intro later s' hs'
      have hlater := hvalid.extends (.afterAll g later) (hg.wellFormed.afterAll later) hs hs'
      simpa [Scope.owns] using hlater.correlated

-- A nested select asks for outer joins in both branches of an OR, one of them between tables of the
-- select around it.
theorem edges_of_run_branches
    : let key : ForeignKey :=
        { columns := ["S_ID"], referencedTable := "S", primaryKeyColumns := ["ID"] }
      let rel : Relation :=
        { name := "s", source := { name := "T" }, target := { name := "S" }, foreignKey := key }
      let calls : List JoinCall :=
        [.declareVariable .root "v", .subselect .root, .beginOr ⟨1⟩,
          .join ⟨1⟩ (.ofVariable "v") rel .outer, .nextOrBranch ⟨1⟩, .join ⟨1⟩ .root rel .outer,
          .endOr ⟨1⟩]
      let g := (JoinGraph.new .sql92).afterAll calls
      let e : JoinEdge := ⟨"T", ⟨0⟩, "S", ⟨1⟩, key, false, .inner, true⟩
      let f : JoinEdge := ⟨"T", ⟨2⟩, "S", ⟨3⟩, key, false, .inner, false⟩
      let s : Scope :=
        { enclosing := [.root], joinSyntax := .traditional, edges := [e, f],
          entries := [⟨.root, "T", ⟨2⟩⟩, ⟨.join .root "s" none, "S", ⟨3⟩⟩],
          implicitDistinct := true }
      let later : List JoinCall := [.clearJoins ⟨1⟩, .aliasFor ⟨1⟩ rel.target .root true]
      let s' : Scope := { s with edges := [] }
      g.scope? ⟨1⟩ = some s ∧ (g.afterAll later).scope? ⟨1⟩ = some s'
        ∧ (e.correlated ↔ ¬ (s'.owns e.source ∧ s'.owns e.target))
        ∧ g.table? e.target = some "S" ∧ (s.joinSyntax = .traditional → f.kind ≠ .outer) := by
  intro key rel calls g e f s later s'
  have hs : g.scope? ⟨1⟩ = some s := by decide +kernel
  have hlater : (g.afterAll later).scope? ⟨1⟩ = some s' := by decide +kernel
  obtain ⟨_, _, hedges⟩ := edges_of_run .sql92 calls ⟨1⟩ s hs
  have hstore : s.edges ∈ s.stores := List.mem_cons_self
  obtain ⟨_, _, htarget, hcorrelated, _⟩ := hedges _ hstore e (by simp [s])
  obtain ⟨_, _, _, _, hkind⟩ := hedges _ hstore f (by simp [s])
  exact ⟨hs, hlater, hcorrelated later s' hlater, htarget, hkind⟩

end JoinGraph

end SqlDialect
