import SqlDialect.Proofs.Join.Requests

/-!
This module contains what a call of a join graph leaves alone. Nothing but its own scope changes,
except that a path which starts from a variable may add aliases to the scope that declares it.
-/

namespace SqlDialect

def JoinCall.scope : JoinCall → ScopeId
  | .subselect parent => parent
  | .declareVariable id _ | .aliasFor id _ _ _ | .join id _ _ _ | .crossJoin id _ _ _ _
  | .clearJoins id | .beginOr id | .nextOrBranch id | .endOr id => id

namespace JoinGraph

variable {g g' : JoinGraph} {id : ScopeId} {requested : List String}

/--
No scope is added. Scopes other than `id` stay as they are, except for aliases that are added to
scopes which declare a requested variable.
-/
structure Confined (id : ScopeId) (requested : List String) (g g' : JoinGraph) : Prop where
  length_eq : g'.scopes.length = g.scopes.length
  others : ∀ i s, i ≠ id → g.scope? i = some s →
    ∃ added, g'.scope? i = some { s with entries := s.entries ++ added }
      ∧ (added ≠ [] → ∃ v ∈ requested, v ∈ s.variableNames)

namespace Confined

theorem refl (g : JoinGraph) : Confined id requested g g where
  length_eq := rfl
  others := by
    intro i s _ hs
    exact ⟨[], by simpa using hs, by simp⟩

theorem trans {g'' : JoinGraph} (h : Confined id requested g g')
    (h' : Confined id requested g' g'') : Confined id requested g g'' where
  length_eq := h'.length_eq.trans h.length_eq
  others := by
    intro i s hi hs
    obtain ⟨added, hs', hadded⟩ := h.others i s hi hs
    obtain ⟨added', hs'', hadded'⟩ := h'.others i _ hi hs'
    refine ⟨added ++ added', by simpa using hs'', ?_⟩
    intro hne
    rw [ne_eq, List.append_eq_nil_iff, not_and_or] at hne
    exact hne.elim hadded hadded'

theorem modifyScope (g : JoinGraph) (f : Scope → Scope)
    : Confined id requested g (g.modifyScope id f) where
  length_eq := List.length_modify ..
  others := by
    intro i s hi hs
    rw [scope?_modifyScope, if_neg hi.symm]
    exact (refl g).others i s hi hs

theorem of_edit {f : Scope → Scope} (h : g.edit id f = .ok g') : Confined id requested g g' := by
  rw [edit_eq_ok h]
  apply modifyScope

theorem of_requireAlias {table : Table} {path : JoinPath} {a : Alias}
    (h : g.requireAlias id table path = .ok (a, g'))
    (hv : ∀ v, path.rootVariable? = some v → v ∈ requested) : Confined id requested g g' := by
  rw [requireAlias_eq_ok_iff] at h
  obtain ⟨outer, houter, ⟨_, rfl⟩ | ⟨_, halloc⟩⟩ := h
  · exact refl g'
  · obtain rfl : _ = g' := congrArg Prod.snd halloc
    constructor
    case length_eq => exact List.length_modify ..
    case others =>
      intro i s hi hs
      rw [scope?_allocate]
      split
      · next howner =>
        -- The owner is not `id`, so it was found by the variable that the path starts from.
        cases hhome : g.home? id outer path with
        | none =>
          rw [hhome] at howner
          exact absurd howner.symm hi
        | some home =>
          rw [hhome] at howner
          obtain rfl : home = i := howner
          obtain ⟨v, t, hroot, _, ht, hdeclared⟩ := home?_eq_some hhome
          obtain rfl : t = s := Option.some.inj (ht.symm.trans hs)
          rw [hs]
          exact ⟨_, rfl, fun _ => ⟨v, hv v hroot, hdeclared⟩⟩
      · exact (refl g).others i s hi hs

theorem of_join {path : JoinPath} {rel : Relation} {kind : JoinKind} {t : JoinedTable}
    (h : g.join id path rel kind = .ok (t, g'))
    : Confined id path.rootVariable?.toList g g' := by
  obtain ⟨g₁, g₂, g₃, e, hsource, htarget, hg₃, _, _, rfl⟩ := join_eq_ok h
  have hsource : Confined id path.rootVariable?.toList g g₁ := of_requireAlias hsource (by simp)
  have htarget : Confined id path.rootVariable?.toList g₁ g₂ :=
    of_requireAlias htarget (by simp [JoinPath.rootVariable?_join])
  have hends := hsource.trans htarget
  obtain rfl | rfl := hg₃
  · exact hends.trans (modifyScope _ _)
  · exact (hends.trans (modifyScope _ _)).trans (modifyScope _ _)

theorem of_crossJoin {source target : Table} {path : JoinPath} {v : String} {t : JoinedTable}
    (h : g.crossJoin id source path target v = .ok (t, g'))
    : Confined id (path.rootVariable?.toList ++ [v]) g g' := by
  obtain ⟨g₁, g₂, e, hsource, htarget, _, _, rfl⟩ := crossJoin_eq_ok h
  have hsource : Confined id (path.rootVariable?.toList ++ [v]) _ g₁ :=
    of_requireAlias hsource (by simp +contextual)
  have htarget : Confined id (path.rootVariable?.toList ++ [v]) g₁ g₂ :=
    of_requireAlias htarget (by simp [JoinPath.ofVariable, JoinPath.rootVariable?])
  exact (((modifyScope _ _).trans hsource).trans htarget).trans (modifyScope _ _)

theorem of_aliasFor {table : Table} {path : JoinPath} {create : Bool} {a : Option Alias}
    (h : g.aliasFor id table path create = .ok (a, g'))
    : Confined id path.rootVariable?.toList g g' := by
  cases create with
  | false =>
    obtain ⟨_, _, h⟩ := Compile.bind_eq_ok_iff.mp h
    cases h
    exact refl g
  | true =>
    obtain ⟨⟨b, g₁⟩, hrequire, h⟩ := Compile.bind_eq_ok_iff.mp h
    cases h
    exact of_requireAlias hrequire (by simp)

theorem of_perform {call : JoinCall} (hnest : ∀ parent, call ≠ .subselect parent)
    (h : g.perform call = .ok g') : Confined call.scope call.requested g g' := by
  cases call with
  | subselect parent => exact absurd rfl (hnest parent)
  | aliasFor id table path create =>
    obtain ⟨_, h⟩ := snd_map_eq_ok h
    exact of_aliasFor h
  | join id path rel kind =>
    obtain ⟨_, h⟩ := snd_map_eq_ok h
    exact of_join h
  | crossJoin id source path target v =>
    obtain ⟨_, h⟩ := snd_map_eq_ok h
    exact of_crossJoin h
  | declareVariable | clearJoins | beginOr => exact of_edit h
  | nextOrBranch | endOr =>
    obtain ⟨b, rfl⟩ := openBranches_edit_eq_ok h
    apply modifyScope

end Confined
end JoinGraph
end SqlDialect
