import Mathlib.Data.List.Nodup
import SqlDialect.Proofs.Join.Run

/-!
This module contains the theory of the aliases of a join graph: in every graph that a run can reach
the scopes share the aliases out among themselves, a scope never has two aliases for one table at
one path, and what has once been entered stays.
-/

namespace SqlDialect
namespace JoinGraph

variable {declared requested : List String} {g g' : JoinGraph}

def Nested (g : JoinGraph) : Prop :=
  ∀ id s p ps, g.scope? id = some s → s.enclosing = p :: ps →
    p.index < id.index ∧ ∃ outer, g.scope? p = some outer ∧ outer.enclosing = ps

structure WellFormed (g : JoinGraph) : Prop where
  /-- The scopes together list the aliases below `aliasCount`, each of them once. -/
  listed : (g.scopes.flatMap (·.aliases)).Perm ((List.range g.aliasCount).map Alias.mk)
  increasing : ∀ id s, g.scope? id = some s → s.aliases.Pairwise (·.index < ·.index)
  table_eq : ∀ id s, g.scope? id = some s → ∀ e ∈ s.entries, g.table? e.ref = some e.table
  keys_ne : ∀ id s, g.scope? id = some s →
    s.entries.Pairwise fun e f => ¬ (e.path = f.path ∧ e.table = f.table)
  nested : g.Nested

theorem scope?_modifyScope (g : JoinGraph) (i j : ScopeId) (f : Scope → Scope)
    : (g.modifyScope i f).scope? j = if i = j then (g.scope? j).map f else g.scope? j := by
  unfold modifyScope scope?
  rw [List.getElem?_modify]
  by_cases h : i = j
  · simp [h]
  · have : i.index ≠ j.index := by
      intro hij
      exact h (by cases i; cases j; simpa using hij)
    simp [h, this]

theorem scope?_modifyScope_eq_some {i j : ScopeId} {f : Scope → Scope} {t : Scope}
    (h : (g.modifyScope i f).scope? j = some t)
    : ∃ s, g.scope? j = some s ∧ (t = s ∨ i = j ∧ t = f s) := by
  rw [scope?_modifyScope] at h
  split at h
  · next hij =>
    obtain ⟨s, hs, rfl⟩ := Option.map_eq_some_iff.mp h
    exact ⟨s, hs, .inr ⟨hij, rfl⟩⟩
  · exact ⟨t, h, .inl rfl⟩

theorem exists_scope?_modifyScope {i j : ScopeId} {f : Scope → Scope} {s : Scope}
    (h : g.scope? j = some s)
    : ∃ t, (g.modifyScope i f).scope? j = some t ∧ (t = s ∨ i = j ∧ t = f s) := by
  rw [scope?_modifyScope, h]
  split
  · next hij => exact ⟨f s, rfl, .inr ⟨hij, rfl⟩⟩
  · exact ⟨s, rfl, .inl rfl⟩

theorem Nested.modifyScope (h : g.Nested) (id : ScopeId) {f : Scope → Scope}
    (hf : ∀ s, (f s).enclosing = s.enclosing) : (g.modifyScope id f).Nested := by
  intro j t p ps ht hp
  obtain ⟨s, hs, hst⟩ := scope?_modifyScope_eq_some ht
  have henclosing : s.enclosing = p :: ps := by
    obtain rfl | ⟨_, rfl⟩ := hst
    · exact hp
    · rw [← hf]
      exact hp
  obtain ⟨hlt, outer, houter, hps⟩ := h j s p ps hs henclosing
  obtain ⟨outer', houter', hsame⟩ := exists_scope?_modifyScope houter
  refine ⟨hlt, outer', houter', ?_⟩
  obtain rfl | ⟨_, rfl⟩ := hsame
  · exact hps
  · rw [hf]
    exact hps

theorem lt_length_of_scope? {id : ScopeId} {s : Scope} (h : g.scope? id = some s)
    : id.index < g.scopes.length := by
  unfold scope? at h
  exact (List.getElem?_eq_some_iff.mp h).1

theorem scope?_nest (g : JoinGraph) (inner : Scope) (id : ScopeId)
    : { g with scopes := g.scopes ++ [inner] : JoinGraph }.scope? id
        =
      if id.index = g.scopes.length then some inner else g.scope? id := by
  unfold scope?
  rw [List.getElem?_append]
  split
  · next h => rw [if_neg (by omega)]
  · next h =>
    split
    · next heq => simp [heq]
    · next hne =>
      rw [List.getElem?_eq_none (by simp; omega), List.getElem?_eq_none (by omega)]

section Allocate

variable {owner : ScopeId} {path : JoinPath} {table : String}

theorem scope?_allocate (g : JoinGraph) (owner j : ScopeId) (path : JoinPath) (table : String)
    : (g.allocate owner path table).2.scope? j
        =
      if owner = j then
        (g.scope? j).map fun s =>
          { s with entries := s.entries ++ [⟨path, table, ⟨g.aliasCount⟩⟩] }
      else
        g.scope? j :=
  scope?_modifyScope ..

theorem scope?_allocate_eq_some {j : ScopeId} {t : Scope}
    (h : (g.allocate owner path table).2.scope? j = some t)
    : ∃ s, g.scope? j = some s ∧
        (t = s ∨
          owner = j ∧ t = { s with entries := s.entries ++ [⟨path, table, ⟨g.aliasCount⟩⟩] }) :=
  scope?_modifyScope_eq_some h

@[simp]
theorem tables_allocate : (g.allocate owner path table).2.tables = g.tables ++ [table] := rfl

@[simp]
theorem aliasCount_allocate : (g.allocate owner path table).2.aliasCount = g.aliasCount + 1 := by
  simp [aliasCount]

end Allocate

theorem mem_scopes_of_scope? {id : ScopeId} {s : Scope} (h : g.scope? id = some s)
    : s ∈ g.scopes := by
  unfold scope? at h
  exact List.mem_of_getElem? h

namespace WellFormed

theorem lt_aliasCount (h : g.WellFormed) {id : ScopeId} {s : Scope} (hs : g.scope? id = some s)
    {a : Alias} (ha : a ∈ s.aliases) : a.index < g.aliasCount := by
  have hmem : a ∈ g.scopes.flatMap (·.aliases) := by
    rw [List.mem_flatMap]
    exact ⟨s, mem_scopes_of_scope? hs, ha⟩
  rw [h.listed.mem_iff] at hmem
  simp only [List.mem_map, List.mem_range] at hmem
  obtain ⟨n, hn, rfl⟩ := hmem
  exact hn

theorem new (joinSyntax : JoinSyntax) : (JoinGraph.new joinSyntax).WellFormed := by
  have hscope : ∀ id s, (JoinGraph.new joinSyntax).scope? id = some s → s = { joinSyntax } := by
    intro id s hs
    simpa [JoinGraph.new] using mem_scopes_of_scope? hs
  constructor
  case listed => simp [JoinGraph.new, aliasCount, Scope.aliases]
  all_goals
    intro id s
    intros
    have := hscope id s (by assumption)
    simp_all [Scope.aliases]

theorem flatMap_aliases_modify_of_eq {scopes : List Scope} {i : Nat} {f : Scope → Scope}
    (hf : ∀ s, (f s).aliases = s.aliases)
    : (scopes.modify i f).flatMap (·.aliases) = scopes.flatMap (·.aliases) := by
  induction scopes generalizing i with
  | nil => simp
  | cons s scopes ih =>
    cases i with
    | zero => simp [hf]
    | succ i => simp [ih]

theorem flatMap_aliases_modify_perm {scopes : List Scope} {i : Nat} {f : Scope → Scope} {a : Alias}
    (hi : i < scopes.length) (hf : ∀ s, (f s).aliases = s.aliases ++ [a])
    : ((scopes.modify i f).flatMap (·.aliases)).Perm (scopes.flatMap (·.aliases) ++ [a]) := by
  induction scopes generalizing i with
  | nil => simp at hi
  | cons s scopes ih =>
    cases i with
    | zero =>
      simp only [List.modify_zero_cons, List.flatMap_cons, hf, List.append_assoc]
      apply List.Perm.append_left
      exact List.perm_append_comm
    | succ i =>
      simp only [List.modify_succ_cons, List.flatMap_cons, List.append_assoc]
      apply List.Perm.append_left
      exact ih (by simpa using hi)

theorem modifyScope (h : g.WellFormed) (id : ScopeId) {f : Scope → Scope}
    (hf : ∀ s, (f s).enclosing = s.enclosing ∧ (f s).entries = s.entries)
    : (g.modifyScope id f).WellFormed := by
  have haliases : ∀ s, (f s).aliases = s.aliases := by
    intro s
    unfold Scope.aliases
    rw [(hf s).2]
  constructor
  case listed =>
    unfold JoinGraph.modifyScope
    rw [flatMap_aliases_modify_of_eq haliases]
    exact h.listed
  case increasing =>
    intro j t ht
    obtain ⟨s, hs, rfl | ⟨_, rfl⟩⟩ := scope?_modifyScope_eq_some ht
    · exact h.increasing j _ hs
    · rw [haliases]
      exact h.increasing j s hs
  case table_eq =>
    intro j t ht
    obtain ⟨s, hs, rfl | ⟨_, rfl⟩⟩ := scope?_modifyScope_eq_some ht
    · exact h.table_eq j _ hs
    · rw [(hf s).2]
      exact h.table_eq j s hs
  case keys_ne =>
    intro j t ht
    obtain ⟨s, hs, rfl | ⟨_, rfl⟩⟩ := scope?_modifyScope_eq_some ht
    · exact h.keys_ne j _ hs
    · rw [(hf s).2]
      exact h.keys_ne j s hs
  case nested => exact h.nested.modifyScope id fun s => (hf s).1

theorem nest (h : g.WellFormed) {parent : ScopeId} {outer : Scope} (joinSyntax : JoinSyntax)
    (hparent : g.scope? parent = some outer)
    : { g with
        scopes := g.scopes ++ [{ enclosing := parent :: outer.enclosing, joinSyntax }]
        : JoinGraph }.WellFormed := by
  constructor
  case listed => simpa [Scope.aliases, aliasCount] using h.listed
  case increasing =>
    intro id s hs
    rw [scope?_nest] at hs
    split at hs
    · cases hs
      exact .nil
    · exact h.increasing id s hs
  case table_eq =>
    intro id s hs
    rw [scope?_nest] at hs
    split at hs
    · cases hs
      simp
    · exact h.table_eq id s hs
  case keys_ne =>
    intro id s hs
    rw [scope?_nest] at hs
    split at hs
    · cases hs
      exact .nil
    · exact h.keys_ne id s hs
  case nested =>
    intro id s p ps hs hp
    have hlt := lt_length_of_scope? hparent
    rw [scope?_nest] at hs
    split at hs
    · next hid =>
      cases hs
      simp only [List.cons.injEq] at hp
      obtain ⟨rfl, rfl⟩ := hp
      refine ⟨by omega, outer, ?_, rfl⟩
      rw [scope?_nest, if_neg (by omega)]
      exact hparent
    · obtain ⟨hlt, outer, houter, hps⟩ := h.nested id s p ps hs hp
      have := lt_length_of_scope? houter
      refine ⟨hlt, outer, ?_, hps⟩
      rw [scope?_nest, if_neg (by omega)]
      exact houter

theorem table?_allocate_of_eq_some {owner : ScopeId} {path : JoinPath} {table name : String}
    {a : Alias} (h : g.table? a = some name)
    : (g.allocate owner path table).2.table? a = some name := by
  unfold table? at h ⊢
  rw [tables_allocate]
  rw [List.getElem?_append_left (List.getElem?_eq_some_iff.mp h).1]
  exact h

theorem allocate (h : g.WellFormed) {owner : ScopeId} {t : Scope} {path : JoinPath} {table : String}
    (howner : g.scope? owner = some t) (hnew : t.lookup? path table = none)
    : (g.allocate owner path table).2.WellFormed := by
  constructor
  case listed =>
    have hperm : ((g.allocate owner path table).2.scopes.flatMap (·.aliases)).Perm
        (g.scopes.flatMap (·.aliases) ++ [⟨g.aliasCount⟩]) := by
      apply flatMap_aliases_modify_perm (lt_length_of_scope? howner)
      intro s
      simp [Scope.aliases, aliasCount]
    rw [aliasCount_allocate, List.range_succ, List.map_append]
    apply hperm.trans
    exact h.listed.append_right _
  case increasing =>
    intro j u hu
    obtain ⟨s, hs, rfl | ⟨_, rfl⟩⟩ := scope?_allocate_eq_some hu
    · exact h.increasing j _ hs
    · have hlast : ∀ a ∈ s.aliases, a.index < g.aliasCount := fun a ha => h.lt_aliasCount hs ha
      have hold := h.increasing j s hs
      simp only [Scope.aliases, List.map_append, List.pairwise_append] at hlast hold ⊢
      simpa [hold] using hlast
  case table_eq =>
    intro j u hu e he
    obtain ⟨s, hs, rfl | ⟨_, rfl⟩⟩ := scope?_allocate_eq_some hu
    · exact table?_allocate_of_eq_some (h.table_eq j _ hs e he)
    · simp only [List.mem_append, List.mem_singleton] at he
      cases he with
      | inl he => exact table?_allocate_of_eq_some (h.table_eq j s hs e he)
      | inr he =>
        rw [he]
        simp [table?, aliasCount]
  case keys_ne =>
    intro j u hu
    obtain ⟨s, hs, rfl | ⟨rfl, rfl⟩⟩ := scope?_allocate_eq_some hu
    · exact h.keys_ne j _ hs
    · obtain rfl : t = s := by
        rw [howner] at hs
        exact Option.some.inj hs
      have hfree : ∀ e ∈ t.entries, ¬ (e.path = path ∧ e.table = table) := by
        unfold Scope.lookup? at hnew
        simpa using hnew
      rw [List.pairwise_append]
      refine ⟨h.keys_ne _ t howner, by simp, ?_⟩
      simpa using hfree
  case nested =>
    have hnested : { g with tables := g.tables ++ [table] : JoinGraph }.Nested := h.nested
    exact hnested.modifyScope owner fun _ => rfl

end WellFormed

section Owner

variable {id : ScopeId} {s : Scope} {path : JoinPath} {table : String}

theorem home?_eq_some {home : ScopeId} (h : g.home? id s path = some home)
    : ∃ v t, path.rootVariable? = some v ∧ home ∈ id :: s.enclosing ∧ g.scope? home = some t
        ∧ v ∈ t.variableNames := by
  unfold home? declaringScope? at h
  obtain ⟨v, hv, h⟩ := Option.bind_eq_some_iff.mp h
  have hfound := List.find?_some h
  rw [Option.any_eq_true] at hfound
  obtain ⟨t, ht, hcontains⟩ := hfound
  exact ⟨v, t, hv, List.mem_of_find?_eq_some h, ht, by simpa using hcontains⟩

theorem not_isRoot_of_rootVariable? {v : String} (h : path.rootVariable? = some v)
    : path.isRoot = false := by
  obtain ⟨_ | ⟨_, _⟩⟩ := path
  · cases h
  · rfl

theorem home?_of_isRoot (h : path.isRoot = true) : g.home? id s path = none := by
  cases hv : path.rootVariable? with
  | none => simp [home?, hv]
  | some v =>
    rw [not_isRoot_of_rootVariable? hv] at h
    cases h

theorem owner_mem (g : JoinGraph) (id : ScopeId) (s : Scope) (path : JoinPath)
    : (g.home? id s path).getD id ∈ id :: s.enclosing := by
  cases hhome : g.home? id s path with
  | none => simp
  | some home =>
    obtain ⟨_, _, _, hmem, _⟩ := home?_eq_some hhome
    exact hmem

theorem lookup?_owner_eq_none (hs : g.scope? id = some s)
    (hnew : g.findAlias? id s table path = none)
    : ∃ t, g.scope? ((g.home? id s path).getD id) = some t ∧ t.lookup? path table = none := by
  unfold findAlias? at hnew
  rw [Option.or_eq_none_iff] at hnew
  obtain ⟨hhere, helsewhere⟩ := hnew
  cases hhome : g.home? id s path with
  | none => exact ⟨s, hs, hhere⟩
  | some home =>
    obtain ⟨v, t, hv, _, ht, _⟩ := home?_eq_some hhome
    rw [if_neg (by simp [not_isRoot_of_rootVariable? hv])] at helsewhere
    simp only [hhome, List.findSome?_eq_none_iff] at helsewhere
    have := helsewhere home (by simp)
    rw [ht] at this
    exact ⟨t, ht, this⟩

end Owner

theorem WellFormed.step (hstep : AliasStep declared requested g g') (h : g.WellFormed)
    : g'.WellFormed := by
  cases hstep with
  | nest joinSyntax hparent => exact h.nest joinSyntax hparent
  | declare id hv => exact h.modifyScope id fun _ => ⟨rfl, rfl⟩
  | allocate hscope hnew hv =>
    obtain ⟨t, ht, hfree⟩ := lookup?_owner_eq_none hscope hnew
    exact h.allocate ht hfree
  | edit id hf => exact h.modifyScope id fun s => ⟨(hf s).1, (hf s).2.1⟩

structure Extends (g g' : JoinGraph) : Prop where
  tables : g.tables <+: g'.tables
  scopes : ∀ id s, g.scope? id = some s →
    ∃ s', g'.scope? id = some s' ∧ s'.enclosing = s.enclosing ∧ s.entries <+: s'.entries

namespace Extends

theorem refl (g : JoinGraph) : g.Extends g where
  tables := List.prefix_refl _
  scopes := fun _ s hs => ⟨s, hs, rfl, List.prefix_refl _⟩

theorem trans {g'' : JoinGraph} (h : g.Extends g') (h' : g'.Extends g'') : g.Extends g'' where
  tables := h.tables.trans h'.tables
  scopes := by
    intro id s hs
    obtain ⟨s', hs', henclosing, hentries⟩ := h.scopes id s hs
    obtain ⟨s'', hs'', henclosing', hentries'⟩ := h'.scopes id s' hs'
    exact ⟨s'', hs'', henclosing'.trans henclosing, hentries.trans hentries'⟩

theorem aliasCount_le (h : g.Extends g') : g.aliasCount ≤ g'.aliasCount := h.tables.length_le

theorem modifyScope (g : JoinGraph) (id : ScopeId) {f : Scope → Scope}
    (hf : ∀ s, (f s).enclosing = s.enclosing ∧ s.entries <+: (f s).entries)
    : g.Extends (g.modifyScope id f) where
  tables := List.prefix_refl _
  scopes := by
    intro j s hs
    obtain ⟨t, ht, rfl | ⟨_, rfl⟩⟩ := exists_scope?_modifyScope hs
    · exact ⟨t, ht, rfl, List.prefix_refl _⟩
    · exact ⟨f s, ht, hf s⟩

theorem nest (g : JoinGraph) (inner : Scope)
    : g.Extends { g with scopes := g.scopes ++ [inner] } where
  tables := List.prefix_refl _
  scopes := by
    intro id s hs
    have := lt_length_of_scope? hs
    refine ⟨s, ?_, rfl, List.prefix_refl _⟩
    rw [scope?_nest, if_neg (by omega)]
    exact hs

theorem allocate (g : JoinGraph) (owner : ScopeId) (path : JoinPath) (table : String)
    : g.Extends (g.allocate owner path table).2 := by
  have htables : g.Extends { g with tables := g.tables ++ [table] } :=
    ⟨List.prefix_append .., fun _ s hs => ⟨s, hs, rfl, List.prefix_refl _⟩⟩
  apply htables.trans
  exact .modifyScope _ _ fun _ => ⟨rfl, List.prefix_append ..⟩

theorem of_step (hstep : AliasStep declared requested g g') : g.Extends g' := by
  cases hstep with
  | nest joinSyntax hparent => apply Extends.nest
  | declare id hv => exact .modifyScope g id fun _ => ⟨rfl, List.prefix_refl _⟩
  | allocate hscope hnew hv => apply Extends.allocate
  | edit id hf =>
    apply Extends.modifyScope
    intro s
    rw [(hf s).2.1]
    exact ⟨(hf s).1, List.prefix_refl _⟩

theorem after (g : JoinGraph) (call : JoinCall) : g.Extends (g.after call) :=
  after_preserves (fun hstep h => h.trans (.of_step hstep)) (.refl g)

theorem afterAll (g : JoinGraph) (calls : List JoinCall) : g.Extends (g.afterAll calls) :=
  afterAll_preserves calls (fun hstep h => h.trans (.of_step hstep)) (.refl g)

end Extends

theorem WellFormed.afterAll (h : g.WellFormed) (calls : List JoinCall)
    : (g.afterAll calls).WellFormed :=
  afterAll_preserves calls WellFormed.step h

def HasEntry (g : JoinGraph) (e : AliasEntry) : Prop :=
  ∃ id s, g.scope? id = some s ∧ e ∈ s.entries

theorem HasEntry.extends {e : AliasEntry} (h : g.HasEntry e) (hext : g.Extends g')
    : g'.HasEntry e := by
  obtain ⟨id, s, hs, he⟩ := h
  obtain ⟨s', hs', _, hentries⟩ := hext.scopes id s hs
  exact ⟨id, s', hs', hentries.subset he⟩

-- An alias stands in one entry only, since the list of all aliases has no duplicates.
theorem WellFormed.eq_of_ref_eq (h : g.WellFormed) {e f : AliasEntry} (he : g.HasEntry e)
    (hf : g.HasEntry f) (href : e.ref = f.ref) : e = f := by
  have hmem : ∀ {e}, g.HasEntry e → e ∈ g.scopes.flatMap (·.entries) := by
    rintro e ⟨id, s, hs, he⟩
    rw [List.mem_flatMap]
    exact ⟨s, mem_scopes_of_scope? hs, he⟩
  have hnodup : ((g.scopes.flatMap (·.entries)).map (·.ref)).Nodup := by
    rw [List.map_flatMap]
    apply h.listed.nodup_iff.mpr
    apply List.Nodup.map
    · intro m n hmn
      exact Alias.mk.inj hmn
    · exact List.nodup_range
  exact List.inj_on_of_nodup_map hnodup (hmem he) (hmem hf) href

theorem hasEntry_of_lookup? {id : ScopeId} {s : Scope} {path : JoinPath} {table : String}
    {a : Alias} (hs : g.scope? id = some s) (h : s.lookup? path table = some a)
    : g.HasEntry ⟨path, table, a⟩ := by
  unfold Scope.lookup? at h
  obtain ⟨⟨p, t, r⟩, he, rfl⟩ := Option.map_eq_some_iff.mp h
  have hkey : p = path ∧ t = table := by simpa using List.find?_some he
  obtain ⟨rfl, rfl⟩ := hkey
  exact ⟨id, s, hs, List.mem_of_find?_eq_some he⟩

theorem hasEntry_of_occurrence? {id : ScopeId} {s : Scope} {table : String} {a : Alias}
    (hs : g.scope? id = some s) (h : s.occurrence? table = some a)
    : ∃ path, g.HasEntry ⟨path, table, a⟩ := by
  unfold Scope.occurrence? at h
  obtain ⟨⟨p, t, r⟩, he, rfl⟩ := Option.map_eq_some_iff.mp h
  obtain rfl : t = table := by simpa using List.find?_some he
  exact ⟨p, id, s, hs, List.mem_of_find?_eq_some he⟩

theorem hasEntry_of_findAlias? {id : ScopeId} {s : Scope} {path : JoinPath} {table : String}
    {a : Alias} (hs : g.scope? id = some s) (h : g.findAlias? id s table path = some a)
    : ∃ p, g.HasEntry ⟨p, table, a⟩ ∧ (path.isRoot = false → p = path) := by
  unfold findAlias? at h
  rw [Option.or_eq_some_iff] at h
  obtain h | ⟨_, h⟩ := h
  · exact ⟨path, hasEntry_of_lookup? hs h, fun _ => rfl⟩
  · split at h
    · next hroot =>
      obtain ⟨p, hp⟩ := hasEntry_of_occurrence? hs h
      exact ⟨p, hp, by simp [hroot]⟩
    · obtain ⟨i, _, h⟩ := List.exists_of_findSome?_eq_some h
      obtain ⟨t, ht, h⟩ := Option.bind_eq_some_iff.mp h
      exact ⟨path, hasEntry_of_lookup? ht h, fun _ => rfl⟩

theorem hasEntry_allocate {owner : ScopeId} {t : Scope} (howner : g.scope? owner = some t)
    (path : JoinPath) (table : String)
    : (g.allocate owner path table).2.HasEntry ⟨path, table, ⟨g.aliasCount⟩⟩ := by
  refine ⟨owner, { t with entries := t.entries ++ [⟨path, table, ⟨g.aliasCount⟩⟩] }, ?_, by simp⟩
  rw [scope?_allocate, if_pos rfl, howner]
  rfl

theorem hasEntry_of_requireAlias {id : ScopeId} {table : Table} {path : JoinPath} {a : Alias}
    (h : g.requireAlias id table path = .ok (a, g'))
    : ∃ p, g'.HasEntry ⟨p, table.fullName, a⟩ ∧ (path.isRoot = false → p = path) := by
  rw [requireAlias_eq_ok_iff] at h
  obtain ⟨s, hs, ⟨hfound, rfl⟩ | ⟨hnew, halloc⟩⟩ := h
  · exact hasEntry_of_findAlias? hs hfound
  · obtain ⟨t, ht, _⟩ := lookup?_owner_eq_none hs hnew
    have hentry := hasEntry_allocate ht path table.fullName
    rw [halloc] at hentry
    obtain rfl : ⟨g.aliasCount⟩ = a := congrArg Prod.fst halloc
    exact ⟨path, hentry, fun _ => rfl⟩

theorem hasEntry_of_aliasFor {id : ScopeId} {table : Table} {path : JoinPath} {create : Bool}
    {a : Alias} (h : g.aliasFor id table path create = .ok (some a, g'))
    : ∃ p, g'.HasEntry ⟨p, table.fullName, a⟩ ∧ (path.isRoot = false → p = path) := by
  unfold aliasFor at h
  split at h
  · simp only [Compile.bind_eq_ok_iff, Prod.exists] at h
    obtain ⟨b, g₁, hrequire, h⟩ := h
    simp only [Compile.pure_eq_ok, Except.ok.injEq, Prod.mk.injEq, Option.some.injEq] at h
    obtain ⟨rfl, rfl⟩ := h
    exact hasEntry_of_requireAlias hrequire
  · simp only [Compile.bind_eq_ok_iff, aliasOf?_eq_ok_iff] at h
    obtain ⟨b, ⟨s, hs, hfound⟩, h⟩ := h
    simp only [Compile.pure_eq_ok, Except.ok.injEq, Prod.mk.injEq] at h
    obtain ⟨rfl, rfl⟩ := h
    exact hasEntry_of_findAlias? hs hfound

theorem after_of_aliasFor {id : ScopeId} {table : Table} {path : JoinPath} {create : Bool}
    {a : Option Alias} (h : g.aliasFor id table path create = .ok (a, g'))
    : g.after (.aliasFor id table path create) = g' := by
  have hperform : g.perform (.aliasFor id table path create) = .ok g' := by
    rw [perform, h]
    rfl
  rw [JoinGraph.after, hperform]

theorem WellFormed.aliasFor (hg : g.WellFormed) {id : ScopeId} {table : Table} {path : JoinPath}
    {create : Bool} {a : Option Alias} (h : g.aliasFor id table path create = .ok (a, g'))
    : g'.WellFormed := by
  rw [← after_of_aliasFor h]
  exact after_preserves WellFormed.step hg

theorem Extends.of_aliasFor {id : ScopeId} {table : Table} {path : JoinPath} {create : Bool}
    {a : Option Alias} (h : g.aliasFor id table path create = .ok (a, g')) : g.Extends g' := by
  rw [← after_of_aliasFor h]
  apply Extends.after

theorem WellFormed.parent_lt (h : g.WellFormed) {id parent : ScopeId}
    (hparent : g.parent? id = some parent) : parent.index < id.index := by
  unfold JoinGraph.parent? at hparent
  obtain ⟨s, hs, hhead⟩ := Option.bind_eq_some_iff.mp hparent
  obtain ⟨ps, hps⟩ := List.head?_eq_some_iff.mp hhead
  exact (h.nested id s parent ps hs hps).1

theorem WellFormed.aliasFor_ne (hg : g.WellFormed) {id₁ id₂ : ScopeId} {table₁ table₂ : Table}
    {path₁ path₂ : JoinPath} {create₁ create₂ : Bool} {calls : List JoinCall} {a b : Alias}
    {g₁ g₂ : JoinGraph} (h₁ : g.aliasFor id₁ table₁ path₁ create₁ = .ok (some a, g₁))
    (h₂ : (g₁.afterAll calls).aliasFor id₂ table₂ path₂ create₂ = .ok (some b, g₂))
    (hne : table₁.fullName ≠ table₂.fullName ∨
      path₁.isRoot = false ∧ path₂.isRoot = false ∧ path₁ ≠ path₂)
    : a ≠ b := by
  rintro rfl
  obtain ⟨p₁, hentry₁, hpath₁⟩ := hasEntry_of_aliasFor h₁
  obtain ⟨p₂, hentry₂, hpath₂⟩ := hasEntry_of_aliasFor h₂
  have hlater : g₂.HasEntry ⟨p₁, table₁.fullName, a⟩ :=
    (hentry₁.extends (.afterAll g₁ calls)).extends (.of_aliasFor h₂)
  have hg₂ : g₂.WellFormed := ((hg.aliasFor h₁).afterAll calls).aliasFor h₂
  have heq := hg₂.eq_of_ref_eq hlater hentry₂ rfl
  simp only [AliasEntry.mk.injEq, and_true] at heq
  obtain ⟨hp, ht⟩ := heq
  obtain hne | ⟨hroot₁, hroot₂, hne⟩ := hne
  · exact hne ht
  · apply hne
    rw [← hpath₁ hroot₁, ← hpath₂ hroot₂]
    exact hp

theorem aliases_of_run (joinSyntax : JoinSyntax) (calls : List JoinCall)
    : let g := (JoinGraph.new joinSyntax).afterAll calls
      g.WellFormed
      ∧ (∀ id parent, g.parent? id = some parent → parent.index < id.index)
      ∧ (∀ call, g.aliasCount ≤ (g.after call).aliasCount
          ∧ ∀ id s, g.scope? id = some s →
              ∃ s', (g.after call).scope? id = some s' ∧ s'.enclosing = s.enclosing
                ∧ s.entries <+: s'.entries)
      ∧ (∀ id table path create a g', path.isRoot = false →
          g.aliasFor id table path create = .ok (some a, g') →
            g'.HasEntry ⟨path, table.fullName, a⟩
            ∧ ∀ e, g'.HasEntry e → e.ref = a → e = ⟨path, table.fullName, a⟩)
      ∧ (∀ id₁ table₁ path₁ create₁ a g₁ between id₂ table₂ path₂ create₂ b g₂,
          g.aliasFor id₁ table₁ path₁ create₁ = .ok (some a, g₁) →
          (g₁.afterAll between).aliasFor id₂ table₂ path₂ create₂ = .ok (some b, g₂) →
          (table₁.fullName ≠ table₂.fullName ∨
            path₁.isRoot = false ∧ path₂.isRoot = false ∧ path₁ ≠ path₂) →
            a ≠ b) := by
  intro g
  have hg : g.WellFormed := (WellFormed.new joinSyntax).afterAll calls
  refine ⟨hg, fun _ _ => hg.parent_lt, ?_, ?_, ?_⟩
  · intro call
    have hext := Extends.after g call
    exact ⟨hext.aliasCount_le, hext.scopes⟩
  · intro id table path create a g' hpath h
    obtain ⟨p, hentry, hp⟩ := hasEntry_of_aliasFor h
    rw [hp hpath] at hentry
    refine ⟨hentry, ?_⟩
    intro e he href
    exact (hg.aliasFor h).eq_of_ref_eq he hentry href
  · intros
    apply hg.aliasFor_ne <;> assumption

-- The alias is requested from a nested scope and entered into the one that declares the variable.
theorem aliases_of_run_nested
    : let calls : List JoinCall := [.declareVariable .root "v", .subselect .root]
      let g := (JoinGraph.new .sql92).afterAll calls
      ∃ g', g.aliasFor ⟨1⟩ { name := "T" } (.ofVariable "v") true = .ok (some ⟨0⟩, g')
        ∧ g'.HasEntry ⟨.ofVariable "v", "T", ⟨0⟩⟩ :=
  ⟨_, rfl, ((aliases_of_run .sql92 [.declareVariable .root "v", .subselect .root]).2.2.2.1
    ⟨1⟩ { name := "T" } (.ofVariable "v") true ⟨0⟩ _ rfl rfl).1⟩

end JoinGraph
end SqlDialect
