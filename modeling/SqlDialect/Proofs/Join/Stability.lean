import SqlDialect.Proofs.Join.Aliases

/-!
This module contains the stability of aliases: the alias that a request has got is the one that
every later request of the same kind gets, provided that variables are declared before paths start
from them.

Under that proviso a table that is reached from a variable is entered either into the scope that
declares the variable or into one around which nobody does. So the home of a path never comes before
a nearer scope that knows the path, and a search amounts to going from the scope outward.
-/

namespace SqlDialect

theorem Scope.lookup?_of_prefix {s t : Scope} {path : JoinPath} {table : String} {a : Alias}
    (hentries : s.entries <+: t.entries) (h : s.lookup? path table = some a)
    : t.lookup? path table = some a := by
  obtain ⟨new, hnew⟩ := hentries
  unfold Scope.lookup? at h ⊢
  obtain ⟨e, he, rfl⟩ := Option.map_eq_some_iff.mp h
  rw [← hnew, List.find?_append, he]
  rfl

theorem Scope.occurrence?_of_prefix {s t : Scope} {table : String} {a : Alias}
    (hentries : s.entries <+: t.entries) (h : s.occurrence? table = some a)
    : t.occurrence? table = some a := by
  obtain ⟨new, hnew⟩ := hentries
  unfold Scope.occurrence? at h ⊢
  obtain ⟨e, he, rfl⟩ := Option.map_eq_some_iff.mp h
  rw [← hnew, List.find?_append, he]
  rfl

theorem Scope.lookup?_congr {s t : Scope} (h : t.entries = s.entries) (path : JoinPath)
    (table : String) : t.lookup? path table = s.lookup? path table := by
  unfold Scope.lookup?
  rw [h]

-- A new entry for another table or path is not found.
theorem Scope.lookup?_append_of_ne {s t : Scope} {e : AliasEntry} {path : JoinPath} {table : String}
    (ht : t.entries = s.entries ++ [e]) (hne : ¬ (e.path = path ∧ e.table = table))
    : t.lookup? path table = s.lookup? path table := by
  unfold Scope.lookup?
  rw [ht, List.find?_append]
  simp [hne]

namespace JoinGraph

variable {declared requested : List String} {g g' : JoinGraph} {id : ScopeId} {s : Scope}
  {path : JoinPath} {table : String} {a : Alias}

def lookupAt? (g : JoinGraph) (path : JoinPath) (table : String) (id : ScopeId) : Option Alias :=
  (g.scope? id).bind (·.lookup? path table)

theorem lookupAt?_modifyScope (i : ScopeId) {f : Scope → Scope}
    (hf : ∀ s, (f s).entries = s.entries)
    : (g.modifyScope i f).lookupAt? path table = g.lookupAt? path table := by
  funext j
  unfold lookupAt?
  rw [scope?_modifyScope]
  split
  · cases g.scope? j with
    | none => rfl
    | some s => exact Scope.lookup?_congr (hf s) path table
  · rfl

theorem lookupAt?_nest {inner : Scope} (hinner : inner.entries = [])
    : { g with scopes := g.scopes ++ [inner] : JoinGraph }.lookupAt? path table
        =
      g.lookupAt? path table := by
  funext j
  unfold lookupAt?
  rw [scope?_nest]
  split
  · next hj =>
    have hnone : g.scope? j = none := by
      unfold scope?
      rw [List.getElem?_eq_none]
      omega
    rw [hnone]
    simp [Scope.lookup?, hinner]
  · rfl

theorem lookupAt?_allocate_of_ne {owner j : ScopeId} {path' : JoinPath} {table' : String}
    (hne : owner ≠ j ∨ ¬ (path' = path ∧ table' = table))
    : (g.allocate owner path' table').2.lookupAt? path table j = g.lookupAt? path table j := by
  unfold lookupAt?
  rw [scope?_allocate]
  split
  · next howner =>
    cases g.scope? j with
    | none => rfl
    | some s =>
      apply Scope.lookup?_append_of_ne rfl
      cases hne with
      | inl hne => exact absurd howner hne
      | inr hne => exact hne
  · rfl

theorem lookupAt?_of_extends (hext : g.Extends g') (h : g.lookupAt? path table id = some a)
    : g'.lookupAt? path table id = some a := by
  unfold lookupAt? at h ⊢
  obtain ⟨s, hs, h⟩ := Option.bind_eq_some_iff.mp h
  obtain ⟨t, ht, _, hentries⟩ := hext.scopes id s hs
  rw [ht]
  exact Scope.lookup?_of_prefix hentries h

theorem Nested.of_append (hg : g.Nested) {xs ys : List ScopeId} {k : ScopeId}
    (hs : g.scope? id = some s) (h : id :: s.enclosing = xs ++ k :: ys)
    : ∃ t, g.scope? k = some t ∧ t.enclosing = ys := by
  induction xs generalizing id s with
  | nil =>
    simp only [List.nil_append, List.cons.injEq] at h
    obtain ⟨rfl, henclosing⟩ := h
    exact ⟨s, hs, henclosing⟩
  | cons x xs ih =>
    simp only [List.cons_append, List.cons.injEq] at h
    obtain ⟨rfl, henclosing⟩ := h
    cases hsplit : xs ++ k :: ys with
    | nil => simp at hsplit
    | cons p ps =>
      rw [hsplit] at henclosing
      obtain ⟨_, outer, houter, hps⟩ := hg id s p ps hs henclosing
      apply ih houter
      rw [hps, hsplit]

theorem Nested.of_mem (hg : g.Nested) {k : ScopeId} (hs : g.scope? id = some s)
    (h : k ∈ id :: s.enclosing)
    : ∃ t, g.scope? k = some t ∧ ∀ i ∈ k :: t.enclosing, i ∈ id :: s.enclosing := by
  obtain ⟨xs, ys, hsplit⟩ := List.append_of_mem h
  obtain ⟨t, ht, henclosing⟩ := hg.of_append hs hsplit
  refine ⟨t, ht, ?_⟩
  intro i hi
  rw [hsplit, ← henclosing]
  exact List.mem_append_right xs hi

/-! ## Searching from a scope outward -/

def search? (g : JoinGraph) (id : ScopeId) (path : JoinPath) (table : String) : Option Alias :=
  (g.scope? id).bind fun s => (id :: s.enclosing).findSome? (g.lookupAt? path table)

theorem search?_eq_some_iff
    : g.search? id path table = some a
        ↔
      ∃ s before k beyond, g.scope? id = some s ∧ id :: s.enclosing = before ++ k :: beyond
        ∧ g.lookupAt? path table k = some a ∧ ∀ i ∈ before, g.lookupAt? path table i = none := by
  unfold search?
  simp only [Option.bind_eq_some_iff, List.findSome?_eq_some_iff]
  constructor
  · rintro ⟨s, hs, before, k, beyond, h⟩
    exact ⟨s, before, k, beyond, hs, h⟩
  · rintro ⟨s, before, k, beyond, hs, h⟩
    exact ⟨s, hs, before, k, beyond, h⟩

theorem lookupAt?_eq_none_of_findAlias? (hs : g.scope? id = some s) (hpath : path.isRoot = false)
    (hnew : g.findAlias? id s table path = none) {i : ScopeId} (hi : i ∈ id :: s.enclosing)
    : g.lookupAt? path table i = none := by
  unfold findAlias? at hnew
  rw [Option.or_eq_none_iff, if_neg (by simp [hpath]), List.findSome?_eq_none_iff] at hnew
  cases List.mem_cons.mp hi with
  | inl hi =>
    subst hi
    unfold lookupAt?
    rw [hs]
    exact hnew.1
  | inr hi => exact hnew.2 i (by simp [hi])

theorem search?_allocate (hg : g.Nested) {i : ScopeId} {u : Scope} (hu : g.scope? i = some u)
    {path' : JoinPath} {table' : String} (hnew : g.findAlias? i u table' path' = none)
    (hpath : path.isRoot = false) (h : g.search? id path table = some a)
    : (g.allocate ((g.home? i u path').getD i) path' table').2.search? id path table = some a := by
  rw [search?_eq_some_iff] at h
  obtain ⟨s, before, k, beyond, hs, hchain, hk, hbefore⟩ := h
  generalize howner : (g.home? i u path').getD i = owner
  have hfree : ∀ j ∈ before, owner ≠ j ∨ ¬ (path' = path ∧ table' = table) := by
    intro j hj
    by_contra hcon
    simp only [not_or, ne_eq, Decidable.not_not] at hcon
    obtain ⟨rfl, rfl, rfl⟩ := hcon
    -- The scope where the alias was found is then around the owner of the new one.
    obtain ⟨xs, ys, rfl⟩ := List.append_of_mem hj
    rw [List.append_assoc, List.cons_append] at hchain
    obtain ⟨t, ht, henclosing⟩ := hg.of_append hs hchain
    obtain ⟨t', ht', houtward⟩ := hg.of_mem hu (howner ▸ owner_mem g i u path')
    obtain rfl : t = t' := by
      rw [ht] at ht'
      exact Option.some.inj ht'
    have hmem : k ∈ i :: u.enclosing := houtward k (by simp [henclosing])
    rw [lookupAt?_eq_none_of_findAlias? hu hpath hnew hmem] at hk
    cases hk
  have hext := Extends.allocate g owner path' table'
  obtain ⟨s', hs', henclosing, _⟩ := hext.scopes id s hs
  rw [search?_eq_some_iff]
  refine ⟨s', before, k, beyond, hs', by rw [henclosing, hchain], ?_, ?_⟩
  · exact lookupAt?_of_extends hext hk
  · intro j hj
    rw [lookupAt?_allocate_of_ne (hfree j hj)]
    exact hbefore j hj

theorem search?_of_lookupAt?_eq (hext : g.Extends g')
    (hlookup : g'.lookupAt? path table = g.lookupAt? path table)
    (h : g.search? id path table = some a) : g'.search? id path table = some a := by
  unfold search? at h ⊢
  obtain ⟨s, hs, h⟩ := Option.bind_eq_some_iff.mp h
  obtain ⟨s', hs', henclosing, _⟩ := hext.scopes id s hs
  rw [hs', hlookup]
  simpa [henclosing] using h

theorem search?_step (hg : g.Nested) (hstep : AliasStep declared requested g g')
    (hpath : path.isRoot = false) (h : g.search? id path table = some a)
    : g'.search? id path table = some a := by
  have hext := Extends.of_step hstep
  cases hstep with
  | nest joinSyntax hparent =>
    apply search?_of_lookupAt?_eq hext _ h
    exact lookupAt?_nest rfl
  | declare i hv =>
    apply search?_of_lookupAt?_eq hext _ h
    exact lookupAt?_modifyScope i fun _ => rfl
  | allocate hscope hnew hv => exact search?_allocate hg hscope hnew hpath h
  | edit i hf =>
    apply search?_of_lookupAt?_eq hext _ h
    exact lookupAt?_modifyScope i fun s => (hf s).2.1

/-! ## Where the aliases at paths from a variable are -/

def Declares (g : JoinGraph) (v : String) (id : ScopeId) : Prop :=
  ∃ s, g.scope? id = some s ∧ v ∈ s.variableNames

def Settled (g : JoinGraph) (v : String) : Prop :=
  ∀ id s, g.scope? id = some s → ∀ e ∈ s.entries, e.path.rootVariable? = some v →
    g.Declares v id ∨ ∀ i ∈ s.enclosing, ¬ g.Declares v i

def Untouched (g : JoinGraph) (v : String) : Prop :=
  ∀ id s, g.scope? id = some s → ∀ e ∈ s.entries, e.path.rootVariable? ≠ some v

theorem Untouched.settled {v : String} (h : g.Untouched v) : g.Settled v := by
  intro id s hs e he hv
  exact absurd hv (h id s hs e he)

theorem any_contains_iff {v : String}
    : (g.scope? id).any (·.variableNames.contains v) = true ↔ g.Declares v id := by
  rw [Option.any_eq_true]
  simp [Declares]

theorem declaringScope?_eq_some_iff {v : String} {home : ScopeId}
    : g.declaringScope? id s v = some home
        ↔
      g.Declares v home ∧ ∃ nearer beyond, id :: s.enclosing = nearer ++ home :: beyond
        ∧ ∀ i ∈ nearer, ¬ g.Declares v i := by
  unfold declaringScope?
  rw [List.find?_eq_some_iff_append]
  simp only [Bool.not_eq_true', ← Bool.not_eq_true, any_contains_iff]

theorem declaringScope?_eq_none_iff {v : String}
    : g.declaringScope? id s v = none ↔ ∀ i ∈ id :: s.enclosing, ¬ g.Declares v i := by
  unfold declaringScope?
  rw [List.find?_eq_none]
  simp only [any_contains_iff]

theorem Settled.lookupAt?_eq_none {v : String} (h : g.Settled v) (hv : path.rootVariable? = some v)
    (hs : g.scope? id = some s) (hid : ¬ g.Declares v id) {home : ScopeId}
    (hmem : home ∈ s.enclosing) (hhome : g.Declares v home)
    : g.lookupAt? path table id = none := by
  unfold lookupAt?
  rw [hs]
  change s.lookup? path table = none
  cases hlookup : s.lookup? path table with
  | none => rfl
  | some b =>
    unfold Scope.lookup? at hlookup
    obtain ⟨e, he, _⟩ := Option.map_eq_some_iff.mp hlookup
    have hkey : e.path = path ∧ e.table = table := by simpa using List.find?_some he
    have hside := h id s hs e (List.mem_of_find?_eq_some he) (by rw [hkey.1, hv])
    cases hside with
    | inl hdeclares => exact absurd hdeclares hid
    | inr hnobody => exact absurd hhome (hnobody home hmem)

-- The scopes between the requesting one and the home of the path do not know the path.
theorem findSome?_home_cons (hg : g.Nested) (hs : g.scope? id = some s) {home : ScopeId}
    (hhome : g.home? id s path = some home)
    (hsettled : ∀ v, path.rootVariable? = some v → g.Settled v)
    (hhere : g.lookupAt? path table id = none)
    : (home :: s.enclosing).findSome? (g.lookupAt? path table)
        =
      s.enclosing.findSome? (g.lookupAt? path table) := by
  unfold home? at hhome
  obtain ⟨v, hv, hhome⟩ := Option.bind_eq_some_iff.mp hhome
  obtain ⟨hdeclares, nearer, beyond, hchain, hnearer⟩ := declaringScope?_eq_some_iff.mp hhome
  cases nearer with
  | nil =>
    simp only [List.nil_append, List.cons.injEq] at hchain
    rw [List.findSome?_cons, ← hchain.1, hhere]
  | cons x xs =>
    have hbetween : ∀ i ∈ xs, g.lookupAt? path table i = none := by
      intro i hi
      obtain ⟨ys, zs, rfl⟩ := List.append_of_mem hi
      have hsplit : id :: s.enclosing = (x :: ys) ++ i :: (zs ++ home :: beyond) := by
        rw [hchain]
        simp
      obtain ⟨t, ht, henclosing⟩ := hg.of_append hs hsplit
      have hmem : home ∈ t.enclosing := by simp [henclosing]
      exact (hsettled v hv).lookupAt?_eq_none hv ht (hnearer i (by simp)) hmem hdeclares
    simp only [List.cons_append, List.cons.injEq] at hchain
    rw [hchain.2, List.findSome?_append, List.findSome?_eq_none_iff.mpr hbetween]
    rw [List.findSome?_cons, List.findSome?_append, List.findSome?_eq_none_iff.mpr hbetween]
    rw [List.findSome?_cons]
    cases g.lookupAt? path table home <;> rfl

theorem findAlias?_eq_search? (hg : g.Nested) (hs : g.scope? id = some s)
    (hpath : path.isRoot = false) (hsettled : ∀ v, path.rootVariable? = some v → g.Settled v)
    : g.findAlias? id s table path = g.search? id path table := by
  have hhere : g.lookupAt? path table id = s.lookup? path table := by
    unfold lookupAt?
    rw [hs]
    rfl
  unfold findAlias? search?
  rw [hs, if_neg (by simp [hpath])]
  change _ = (id :: s.enclosing).findSome? (g.lookupAt? path table)
  rw [List.findSome?_cons, hhere]
  cases hlookup : s.lookup? path table with
  | some b => rfl
  | none =>
    rw [Option.none_or]
    cases hhome : g.home? id s path with
    | none => rfl
    | some home =>
      rw [hlookup] at hhere
      exact findSome?_home_cons hg hs hhome hsettled hhere

theorem declares_modifyScope {i : ScopeId} {f : Scope → Scope} {v : String}
    (hf : ∀ s, v ∈ (f s).variableNames ↔ v ∈ s.variableNames)
    : (g.modifyScope i f).Declares v id ↔ g.Declares v id := by
  unfold Declares
  rw [scope?_modifyScope]
  split
  · cases g.scope? id with
    | none => simp
    | some s => simp [hf]
  · rfl

theorem declares_nest {inner : Scope} {v : String} (hinner : inner.variableNames = [])
    : { g with scopes := g.scopes ++ [inner] : JoinGraph }.Declares v id ↔ g.Declares v id := by
  unfold Declares
  rw [scope?_nest]
  split
  · next hid =>
    have hnone : g.scope? id = none := by
      unfold scope?
      rw [List.getElem?_eq_none]
      omega
    simp [hnone, hinner]
  · rfl

-- Declarations and the shape of scopes stay, and so does everything about entries that were there.
theorem Settled.of_entries {v : String} (h : g.Settled v)
    (hdeclares : ∀ i, g'.Declares v i ↔ g.Declares v i)
    (hentries : ∀ id s', g'.scope? id = some s' → ∀ e ∈ s'.entries, e.path.rootVariable? = some v →
      (∃ s, g.scope? id = some s ∧ s'.enclosing = s.enclosing ∧ e ∈ s.entries) ∨
        g.Declares v id ∨ ∀ i ∈ s'.enclosing, ¬ g.Declares v i)
    : g'.Settled v := by
  intro id s' hs' e he hv
  simp only [hdeclares]
  cases hentries id s' hs' e he hv with
  | inl hold =>
    obtain ⟨s, hs, henclosing, he⟩ := hold
    rw [henclosing]
    exact h id s hs e he hv
  | inr hnew => exact hnew

theorem Settled.modifyScope {v : String} (h : g.Settled v) (i : ScopeId) {f : Scope → Scope}
    (hf : ∀ s, (f s).enclosing = s.enclosing ∧ (f s).entries = s.entries
      ∧ (v ∈ (f s).variableNames ↔ v ∈ s.variableNames))
    : (g.modifyScope i f).Settled v := by
  apply h.of_entries
  · intro j
    exact declares_modifyScope fun s => (hf s).2.2
  · intro j s' hs' e he _
    obtain ⟨s, hs, rfl | ⟨_, rfl⟩⟩ := scope?_modifyScope_eq_some hs'
    · exact .inl ⟨s', hs, rfl, he⟩
    · exact .inl ⟨s, hs, (hf s).1, (hf s).2.1 ▸ he⟩

theorem Settled.nest {v : String} (h : g.Settled v) {inner : Scope} (hentries : inner.entries = [])
    (hvariables : inner.variableNames = [])
    : { g with scopes := g.scopes ++ [inner] : JoinGraph }.Settled v := by
  apply h.of_entries
  · intro j
    exact declares_nest hvariables
  · intro j s' hs' e he _
    rw [scope?_nest] at hs'
    split at hs'
    · cases hs'
      simp [hentries] at he
    · exact .inl ⟨s', hs', rfl, he⟩

theorem declares_owner {v : String} (hv : path.rootVariable? = some v) (hs : g.scope? id = some s)
    {t : Scope} (ht : g.scope? ((g.home? id s path).getD id) = some t)
    : g.Declares v ((g.home? id s path).getD id) ∨ ∀ i ∈ t.enclosing, ¬ g.Declares v i := by
  have hhome : g.home? id s path = g.declaringScope? id s v := by
    unfold home?
    rw [hv]
    rfl
  rw [hhome] at ht ⊢
  cases hdeclaring : g.declaringScope? id s v with
  | none =>
    rw [hdeclaring] at ht
    obtain rfl : s = t := by
      rw [Option.getD_none, hs] at ht
      exact Option.some.inj ht
    right
    intro i hi
    exact declaringScope?_eq_none_iff.mp hdeclaring i (List.mem_cons_of_mem id hi)
  | some home =>
    left
    exact (declaringScope?_eq_some_iff.mp hdeclaring).1

theorem declares_allocate {owner : ScopeId} {path' : JoinPath} {table' v : String}
    : (g.allocate owner path' table').2.Declares v id ↔ g.Declares v id := by
  unfold Declares
  rw [scope?_allocate]
  split
  · cases g.scope? id <;> simp
  · rfl

theorem Settled.allocate {v : String} (h : g.Settled v) (hs : g.scope? id = some s)
    : (g.allocate ((g.home? id s path).getD id) path table).2.Settled v := by
  apply h.of_entries
  · intro j
    exact declares_allocate
  · intro j t' ht' e he hv
    obtain ⟨t, ht, rfl | ⟨rfl, rfl⟩⟩ := scope?_allocate_eq_some ht'
    · exact .inl ⟨t', ht, rfl, he⟩
    · simp only [List.mem_append, List.mem_singleton] at he
      cases he with
      | inl he => exact .inl ⟨t, ht, rfl, he⟩
      | inr he =>
        subst he
        have hside := declares_owner hv hs ht
        exact .inr hside

theorem Settled.step {v : String} (hstep : AliasStep declared requested g g') (hv : v ∉ declared)
    (h : g.Settled v) : g'.Settled v := by
  cases hstep with
  | nest joinSyntax hparent => exact h.nest rfl rfl
  | @declare i w hw =>
    apply h.modifyScope
    intro s
    have hne : v ≠ w := by
      rintro rfl
      exact hv hw
    simp [hne]
  | allocate hscope hnew hroot => exact h.allocate hscope
  | edit i hf =>
    apply h.modifyScope
    intro s
    refine ⟨(hf s).1, (hf s).2.1, ?_⟩
    rw [(hf s).2.2]

theorem Untouched.step {v : String} (hstep : AliasStep declared requested g g')
    (hv : v ∉ requested) (h : g.Untouched v) : g'.Untouched v := by
  cases hstep with
  | nest joinSyntax hparent =>
    intro id s hs e he
    rw [scope?_nest] at hs
    split at hs
    · cases hs
      cases he
    · exact h id s hs e he
  | declare i hw =>
    intro id t ht e he
    obtain ⟨s, hs, rfl | ⟨_, rfl⟩⟩ := scope?_modifyScope_eq_some ht
    · exact h id t hs e he
    · exact h id s hs e he
  | allocate hscope hnew hroot =>
    intro id t ht e he
    obtain ⟨s, hs, rfl | ⟨_, rfl⟩⟩ := scope?_allocate_eq_some ht
    · exact h id t hs e he
    · simp only [List.mem_append, List.mem_singleton] at he
      cases he with
      | inl he => exact h id s hs e he
      | inr he =>
        subst he
        intro hpath
        exact hv (hroot v hpath)
  | edit i hf =>
    intro id t ht e he
    obtain ⟨s, hs, rfl | ⟨_, rfl⟩⟩ := scope?_modifyScope_eq_some ht
    · exact h id t hs e he
    · rw [(hf s).2.1] at he
      exact h id s hs e he

end JoinGraph

namespace JoinCall

/--
Every variable is declared before a path starts from it.
-/
def DeclaredFirst (calls : List JoinCall) : Prop :=
  calls.Pairwise fun earlier later => ∀ v ∈ earlier.requested, v ∉ later.declared

theorem not_mem_declared_of_mem_requested {call : JoinCall} {v : String} (h : v ∈ call.requested)
    : v ∉ call.declared := by
  cases call <;> simp_all [requested, declared]

end JoinCall

namespace JoinGraph

variable {g g' : JoinGraph} {id : ScopeId} {s : Scope} {path : JoinPath} {table : String}
variable {a : Alias}

theorem Settled.afterAll {v : String} (h : g.Settled v) {calls : List JoinCall}
    (hcalls : ∀ call ∈ calls, v ∉ call.declared) : (g.afterAll calls).Settled v := by
  induction calls generalizing g with
  | nil => exact h
  | cons call calls ih =>
    have hcall := hcalls call (by simp)
    have hstep : (g.after call).Settled v :=
      after_preserves (P := (·.Settled v)) (fun hstep h => h.step hstep hcall) h
    exact ih hstep fun c hc => hcalls c (by simp [hc])

-- Up to the first path from the variable there is no alias to speak of, and from then on no
-- declaration.
theorem Untouched.settled_afterAll {v : String} (h : g.Untouched v) {calls : List JoinCall}
    (hfirst : JoinCall.DeclaredFirst calls) : (g.afterAll calls).Settled v := by
  induction calls generalizing g with
  | nil => exact h.settled
  | cons call calls ih =>
    unfold JoinCall.DeclaredFirst at hfirst
    rw [List.pairwise_cons] at hfirst
    by_cases hv : v ∈ call.requested
    · apply h.settled.afterAll
      intro c hc
      cases List.mem_cons.mp hc with
      | inl hc =>
        subst hc
        exact JoinCall.not_mem_declared_of_mem_requested hv
      | inr hc => exact hfirst.1 c hc v hv
    · have hstep : (g.after call).Untouched v :=
        after_preserves (P := (·.Untouched v)) (fun hstep h => h.step hstep hv) h
      exact ih hstep hfirst.2

theorem Untouched.new (joinSyntax : JoinSyntax) (v : String)
    : (JoinGraph.new joinSyntax).Untouched v := by
  intro id s hs e he
  have : s = { joinSyntax } := by simpa [JoinGraph.new] using mem_scopes_of_scope? hs
  subst this
  cases he

/-! ## Requests after a run -/

def Answers (g : JoinGraph) (id : ScopeId) (table : String) (path : JoinPath) (a : Alias) : Prop :=
  ∃ s, g.scope? id = some s ∧ g.findAlias? id s table path = some a

theorem findAlias?_of_isRoot (hroot : path.isRoot = true)
    : g.findAlias? id s table path = (s.lookup? path table).or (s.occurrence? table) := by
  unfold findAlias?
  rw [if_pos hroot]

-- The empty path is looked for in the scope alone.
theorem answers_of_isRoot (hroot : path.isRoot = true)
    (hscope : ∀ s, g.scope? id = some s → ∃ s', g'.scope? id = some s' ∧ s'.entries = s.entries)
    (h : g.Answers id table path a) : g'.Answers id table path a := by
  obtain ⟨s, hs, h⟩ := h
  obtain ⟨s', hs', hentries⟩ := hscope s hs
  refine ⟨s', hs', ?_⟩
  rw [findAlias?_of_isRoot hroot] at h ⊢
  unfold Scope.lookup? Scope.occurrence? at h ⊢
  rw [hentries]
  exact h

theorem answers_allocate_of_isRoot (hroot : path.isRoot = true) {i : ScopeId} {u : Scope}
    (hu : g.scope? i = some u) {path' : JoinPath} {table' : String}
    (hnew : g.findAlias? i u table' path' = none) (h : g.Answers id table path a)
    : (g.allocate ((g.home? i u path').getD i) path' table').2.Answers id table path a := by
  by_cases howner : (g.home? i u path').getD i = id
  · obtain ⟨s, hs, h⟩ := h
    have hne : ¬ (path' = path ∧ table' = table) := by
      rintro ⟨rfl, rfl⟩
      rw [home?_of_isRoot hroot, Option.getD_none] at howner
      subst howner
      rw [hu] at hs
      cases hs
      rw [hnew] at h
      cases h
    unfold Answers
    rw [scope?_allocate, if_pos howner, hs]
    refine ⟨_, rfl, ?_⟩
    rw [findAlias?_of_isRoot hroot] at h ⊢
    rw [Scope.lookup?_append_of_ne rfl hne]
    rw [Option.or_eq_some_iff] at h ⊢
    cases h with
    | inl h => exact .inl h
    | inr h => exact .inr ⟨h.1, Scope.occurrence?_of_prefix (List.prefix_append ..) h.2⟩
  · apply answers_of_isRoot hroot _ h
    intro s hs
    rw [scope?_allocate, if_neg howner]
    exact ⟨s, hs, rfl⟩

theorem answers_step_of_isRoot {declared requested : List String} (hroot : path.isRoot = true)
    (hstep : AliasStep declared requested g g') (h : g.Answers id table path a)
    : g'.Answers id table path a := by
  cases hstep with
  | nest joinSyntax hparent =>
    apply answers_of_isRoot hroot _ h
    intro s hs
    have := lt_length_of_scope? hs
    rw [scope?_nest, if_neg (by omega)]
    exact ⟨s, hs, rfl⟩
  | declare i hv =>
    apply answers_of_isRoot hroot _ h
    intro s hs
    obtain ⟨t, ht, rfl | ⟨_, rfl⟩⟩ := exists_scope?_modifyScope hs
    · exact ⟨t, ht, rfl⟩
    · exact ⟨_, ht, rfl⟩
  | allocate hscope hnew hv => exact answers_allocate_of_isRoot hroot hscope hnew h
  | edit i hf =>
    apply answers_of_isRoot hroot _ h
    intro s hs
    obtain ⟨t, ht, rfl | ⟨_, rfl⟩⟩ := exists_scope?_modifyScope hs
    · exact ⟨t, ht, rfl⟩
    · exact ⟨_, ht, (hf s).2.1⟩

theorem answers_iff_search? (hg : g.Nested) (hpath : path.isRoot = false)
    (hsettled : ∀ v, path.rootVariable? = some v → g.Settled v)
    : g.Answers id table path a ↔ g.search? id path table = some a := by
  constructor
  · rintro ⟨s, hs, h⟩
    rw [← findAlias?_eq_search? hg hs hpath hsettled]
    exact h
  · intro h
    obtain ⟨s, _, _, _, hs, _⟩ := search?_eq_some_iff.mp h
    refine ⟨s, hs, ?_⟩
    rw [findAlias?_eq_search? hg hs hpath hsettled]
    exact h

theorem Answers.step {declared requested : List String} (h : g.Answers id table path a)
    (hg : g.WellFormed) (hsettled : ∀ v, path.rootVariable? = some v → g.Settled v)
    (hdeclared : ∀ v, path.rootVariable? = some v → v ∉ declared)
    (hstep : AliasStep declared requested g g') : g'.Answers id table path a := by
  cases hroot : path.isRoot with
  | true => exact answers_step_of_isRoot hroot hstep h
  | false =>
    have hsettled' : ∀ v, path.rootVariable? = some v → g'.Settled v := by
      intro v hv
      exact (hsettled v hv).step hstep (hdeclared v hv)
    rw [answers_iff_search? hg.nested hroot hsettled] at h
    rw [answers_iff_search? (hg.step hstep).nested hroot hsettled']
    exact search?_step hg.nested hstep hroot h

theorem Answers.afterAll (h : g.Answers id table path a) (hg : g.WellFormed)
    (hsettled : ∀ v, path.rootVariable? = some v → g.Settled v) {calls : List JoinCall}
    (hdeclared : ∀ call ∈ calls, ∀ v, path.rootVariable? = some v → v ∉ call.declared)
    : (g.afterAll calls).Answers id table path a := by
  induction calls generalizing g with
  | nil => exact h
  | cons call calls ih =>
    have hcall := hdeclared call (by simp)
    have hafter : (g.after call).WellFormed
        ∧ (∀ v, path.rootVariable? = some v → (g.after call).Settled v)
        ∧ (g.after call).Answers id table path a := by
      apply after_preserves (P := fun g => g.WellFormed
        ∧ (∀ v, path.rootVariable? = some v → g.Settled v) ∧ g.Answers id table path a)
      · rintro g g' hstep ⟨hg, hsettled, h⟩
        refine ⟨hg.step hstep, ?_, h.step hg hsettled hcall hstep⟩
        intro v hv
        exact (hsettled v hv).step hstep (hcall v hv)
      · exact ⟨hg, hsettled, h⟩
    apply ih hafter.2.2 hafter.1 hafter.2.1
    intro c hc
    exact hdeclared c (by simp [hc])

theorem aliasFor_of_answers {table : Table} (h : g.Answers id table.fullName path a) (create : Bool)
    : g.aliasFor id table path create = .ok (some a, g) := by
  obtain ⟨s, hs, hfound⟩ := h
  cases create with
  | true =>
    have hrequire : g.requireAlias id table path = .ok (a, g) :=
      requireAlias_eq_ok_iff.mpr ⟨s, hs, .inl ⟨hfound, rfl⟩⟩
    rw [aliasFor, if_pos rfl, hrequire]
    rfl
  | false =>
    have halias : g.aliasOf? id table path = .ok (some a) := aliasOf?_eq_ok_iff.mpr ⟨s, hs, hfound⟩
    rw [aliasFor, if_neg (by simp), halias]
    rfl

theorem search?_eq_some_of_unique (hs : g.scope? id = some s) {owner : ScopeId}
    (howner : owner ∈ id :: s.enclosing) (hfound : g.lookupAt? path table owner = some a)
    (hothers : ∀ i ∈ id :: s.enclosing, i ≠ owner → g.lookupAt? path table i = none)
    : g.search? id path table = some a := by
  obtain ⟨before, beyond, hchain, hbefore⟩ := List.eq_append_cons_of_mem howner
  rw [search?_eq_some_iff]
  refine ⟨s, before, owner, beyond, hs, hchain, hfound, ?_⟩
  intro i hi
  apply hothers i
  · rw [hchain]
    exact List.mem_append_left _ hi
  · rintro rfl
    exact hbefore hi

theorem lookupAt?_allocate_self {owner : ScopeId} {t : Scope} (howner : g.scope? owner = some t)
    (hfree : t.lookup? path table = none)
    : (g.allocate owner path table).2.lookupAt? path table owner = some ⟨g.aliasCount⟩ := by
  unfold lookupAt?
  rw [scope?_allocate, if_pos rfl, howner]
  unfold Scope.lookup? at hfree
  change Option.map _ (List.find? _ (t.entries ++ _)) = _
  rw [List.find?_append, Option.map_eq_none_iff.mp hfree]
  simp

theorem answers_allocate (hg : g.WellFormed) (hs : g.scope? id = some s)
    (hsettled : ∀ v, path.rootVariable? = some v → g.Settled v)
    (hnew : g.findAlias? id s table path = none)
    : (g.allocate ((g.home? id s path).getD id) path table).2.Answers id table path
        ⟨g.aliasCount⟩ := by
  obtain ⟨t, ht, hfree⟩ := lookup?_owner_eq_none hs hnew
  have hself := lookupAt?_allocate_self ht hfree
  have hext := Extends.allocate g ((g.home? id s path).getD id) path table
  obtain ⟨s', hs', henclosing, _⟩ := hext.scopes id s hs
  cases hroot : path.isRoot with
  | true =>
    rw [home?_of_isRoot hroot, Option.getD_none] at hself hs' ⊢
    refine ⟨s', hs', ?_⟩
    unfold lookupAt? at hself
    rw [hs'] at hself
    change s'.lookup? path table = _ at hself
    rw [findAlias?_of_isRoot hroot, hself]
    rfl
  | false =>
    have hnested : (g.allocate ((g.home? id s path).getD id) path table).2.Nested :=
      (hg.allocate ht hfree).nested
    rw [answers_iff_search? hnested hroot fun v hv => (hsettled v hv).allocate hs]
    apply search?_eq_some_of_unique hs' _ hself
    · intro i hi hne
      rw [henclosing] at hi
      rw [lookupAt?_allocate_of_ne (.inl hne.symm)]
      exact lookupAt?_eq_none_of_findAlias? hs hroot hnew hi
    · rw [henclosing]
      apply owner_mem

theorem answers_of_aliasFor {table : Table} (hg : g.WellFormed)
    (hsettled : ∀ v, path.rootVariable? = some v → g.Settled v)
    (h : g.aliasFor id table path true = .ok (some a, g'))
    : g'.Answers id table.fullName path a := by
  rw [aliasFor, if_pos rfl] at h
  simp only [Compile.bind_eq_ok_iff, Prod.exists] at h
  obtain ⟨b, g₁, hrequire, h⟩ := h
  simp only [Compile.pure_eq_ok, Except.ok.injEq, Prod.mk.injEq, Option.some.injEq] at h
  obtain ⟨rfl, rfl⟩ := h
  rw [requireAlias_eq_ok_iff] at hrequire
  obtain ⟨s, hs, ⟨hfound, rfl⟩ | ⟨hnew, halloc⟩⟩ := hrequire
  · exact ⟨s, hs, hfound⟩
  · have hanswers := answers_allocate hg hs hsettled hnew
    rw [halloc] at hanswers
    obtain rfl : ⟨g.aliasCount⟩ = b := congrArg Prod.fst halloc
    exact hanswers

theorem aliasFor_stable {joinSyntax : JoinSyntax} {before after : List JoinCall} {id : ScopeId}
    {table : Table} {path : JoinPath} {a : Alias} {g : JoinGraph}
    (hfirst : JoinCall.DeclaredFirst (before ++ .aliasFor id table path true :: after))
    (h : ((JoinGraph.new joinSyntax).afterAll before).aliasFor id table path true
      = .ok (some a, g))
    (create : Bool)
    : (g.afterAll after).aliasFor id table path create = .ok (some a, g.afterAll after) := by
  unfold JoinCall.DeclaredFirst at hfirst
  rw [List.pairwise_append, List.pairwise_cons] at hfirst
  obtain ⟨hbefore, ⟨hafter, _⟩, _⟩ := hfirst
  have hwf : ((JoinGraph.new joinSyntax).afterAll before).WellFormed :=
    (WellFormed.new joinSyntax).afterAll before
  have hsettled : ∀ v, ((JoinGraph.new joinSyntax).afterAll before).Settled v :=
    fun v => (Untouched.new joinSyntax v).settled_afterAll hbefore
  have hdeclared : ∀ call ∈ after, ∀ v, path.rootVariable? = some v → v ∉ call.declared := by
    intro call hcall v hv
    apply hafter call hcall v
    simp [JoinCall.requested, hv]
  have hsettled' : ∀ v, path.rootVariable? = some v → g.Settled v := by
    intro v hv
    rw [← after_of_aliasFor h]
    apply after_preserves (P := (·.Settled v)) _ (hsettled v)
    intro g g' hstep hg
    exact hg.step hstep (by simp [JoinCall.declared])
  apply aliasFor_of_answers
  apply Answers.afterAll _ (hwf.aliasFor h) hsettled' hdeclared
  exact answers_of_aliasFor hwf (fun v _ => hsettled v) h

-- The alias is requested from inside a nested select and lies with the root, which declares the
-- variable. Later the select around requests it too, in one branch of an OR.
theorem aliasFor_stable_nested
    : let before : List JoinCall :=
        [.declareVariable .root "v", .subselect .root, .subselect ⟨1⟩]
      let after : List JoinCall :=
        [.beginOr ⟨1⟩, .crossJoin ⟨1⟩ { name := "S" } .root { name := "T" } "v", .nextOrBranch ⟨1⟩,
          .subselect ⟨1⟩, .endOr ⟨1⟩, .clearJoins ⟨1⟩]
      let request : JoinCall := .aliasFor ⟨2⟩ { name := "T" } (.ofVariable "v") true
      JoinCall.DeclaredFirst (before ++ request :: after)
      ∧ ∃ g, ((JoinGraph.new .sql92).afterAll before).aliasFor ⟨2⟩ { name := "T" } (.ofVariable "v")
          true = .ok (some ⟨0⟩, g)
        ∧ ∀ create, (g.afterAll after).aliasFor ⟨2⟩ { name := "T" } (.ofVariable "v") create
            = .ok (some ⟨0⟩, g.afterAll after) := by
  intro before after request
  have hfirst : JoinCall.DeclaredFirst (before ++ request :: after) := by
    unfold JoinCall.DeclaredFirst
    decide
  exact ⟨hfirst, _, rfl, aliasFor_stable hfirst rfl⟩

end JoinGraph
end SqlDialect
