import Mathlib.Data.Sym.Sym2
import SqlDialect.Proofs.Join.Edges

/-!
This module contains what becomes of the branches of an OR when it is closed. Each pair of aliases
that some branch joins is joined once, by the first join that was asked for, unless the scope joins
it already. Only a join that some branch does without may change, and only from inner to outer.
-/

namespace SqlDialect

namespace JoinEdge

def pair (e : JoinEdge) : Sym2 Alias := s(e.source, e.target)

theorem samePair_iff {e f : JoinEdge} : e.samePair f ↔ e.pair = f.pair := by
  simp [samePair, pair]

theorem promotedKind_eq (e : JoinEdge) (joinSyntax : JoinSyntax)
    : e.promotedKind joinSyntax
        =
      if e.kind = .inner ∧ joinSyntax ≠ .traditional
          ∧ ¬ (joinSyntax = .native ∧ e.hasConstants) then
        .outer
      else
        e.kind := by
  unfold promotedKind
  cases e.kind <;> cases joinSyntax <;> cases e.hasConstants <;> rfl

end JoinEdge

/-! ## Recording -/

theorem mem_map_pair_iff {edges : List JoinEdge} {e : JoinEdge}
    : e.pair ∈ edges.map (·.pair) ↔ edges.any (·.samePair e) := by
  simp [JoinEdge.samePair_iff]

theorem recordEdge_of_mem {edges : List JoinEdge} {e : JoinEdge}
    (h : e.pair ∈ edges.map (·.pair)) : recordEdge edges e = edges := by
  rw [recordEdge, if_pos (mem_map_pair_iff.mp h)]

theorem recordEdge_of_not_mem {edges : List JoinEdge} {e : JoinEdge}
    (h : e.pair ∉ edges.map (·.pair)) : recordEdge edges e = edges ++ [e] := by
  rw [recordEdge, if_neg (mt mem_map_pair_iff.mpr h)]

theorem map_pair_foldl_recordEdge (new : List JoinEdge)
    : (new.foldl recordEdge []).map (·.pair) = (new.map (·.pair)).eraseDups := by
  -- The last join of the list is recorded last, and only if its pair has not come before.
  induction new using List.reverseRecOn with
  | nil => rfl
  | append_singleton new e ih =>
    have hmem : e.pair ∈ (new.foldl recordEdge []).map (·.pair) ↔ e.pair ∈ new.map (·.pair) := by
      rw [ih, List.mem_eraseDups]
    rw [List.foldl_append, List.foldl_cons, List.foldl_nil, List.map_append, List.eraseDups_append]
    by_cases hknown : e.pair ∈ new.map (·.pair)
    · rw [recordEdge_of_mem (hmem.mpr hknown), ih]
      generalize new.map (·.pair) = pairs at hknown
      simp [List.removeAll, hknown]
    · rw [recordEdge_of_not_mem (mt hmem.mp hknown), List.map_append, ih]
      generalize new.map (·.pair) = pairs at hknown
      simp [List.removeAll, hknown, List.eraseDups_cons]

theorem find?_of_mem_foldl_recordEdge {new : List JoinEdge} {f : JoinEdge}
    (h : f ∈ new.foldl recordEdge []) : new.find? (·.pair = f.pair) = some f := by
  induction new using List.reverseRecOn with
  | nil => cases h
  | append_singleton new e ih =>
    have hmem : e.pair ∈ (new.foldl recordEdge []).map (·.pair) ↔ e.pair ∈ new.map (·.pair) := by
      rw [map_pair_foldl_recordEdge, List.mem_eraseDups]
    rw [List.foldl_append, List.foldl_cons, List.foldl_nil] at h
    rw [List.find?_append]
    by_cases hknown : e.pair ∈ new.map (·.pair)
    · rw [recordEdge_of_mem (hmem.mpr hknown)] at h
      rw [ih h, Option.some_or]
    · rw [recordEdge_of_not_mem (mt hmem.mp hknown)] at h
      obtain h | h := List.mem_append.mp h
      · rw [ih h, Option.some_or]
      · obtain rfl := List.mem_singleton.mp h
        have hnone : new.find? (·.pair = f.pair) = none := by simpa using hknown
        simp [hnone]

theorem foldl_recordEdge_of_pairsDiffer {new : List JoinEdge} (hnew : PairsDiffer new)
    (edges : List JoinEdge)
    : new.foldl recordEdge edges = edges ++ new.filter (·.pair ∉ edges.map (·.pair)) := by
  induction new generalizing edges with
  | nil => simp
  | cons e new ih =>
    obtain ⟨hhead, hnew⟩ := List.pairwise_cons.mp hnew
    simp only [JoinEdge.samePair_iff] at hhead
    rw [List.foldl_cons, ih hnew]
    by_cases hknown : e.pair ∈ edges.map (·.pair)
    · rw [recordEdge_of_mem hknown, List.filter_cons_of_neg (by simpa using hknown)]
    · -- None of the joins that follow has the pair of this one.
      have hrest : new.filter (·.pair ∉ (edges ++ [e]).map (·.pair))
          = new.filter (·.pair ∉ edges.map (·.pair)) := by
        apply List.filter_congr
        intro f hf
        have hne : f.pair ≠ e.pair := fun h => hhead f hf h.symm
        simp [hne]
      rw [recordEdge_of_not_mem hknown, hrest, List.filter_cons_of_pos (by simpa using hknown),
        List.append_assoc, List.singleton_append]

/-! ## Branches -/

namespace OrBranches

variable {b : OrBranches}

def Shared (b : OrBranches) (pair : Sym2 Alias) : Prop :=
  ∀ branch ∈ b.all, pair ∈ branch.map (·.pair)

instance (pair : Sym2 Alias) : Decidable (b.Shared pair) :=
  inferInstanceAs (Decidable (∀ _ ∈ _, _))

theorem isCommon_iff {e : JoinEdge} : b.isCommon e ↔ b.Shared e.pair := by
  simp only [isCommon, Shared, List.all_eq_true, mem_map_pair_iff]

theorem isDivergent_eq : b.isDivergent = decide (∃ e ∈ b.all.flatten, ¬ b.Shared e.pair) := by
  rw [Bool.eq_iff_iff, decide_eq_true_iff, isDivergent, List.any_eq_true]
  simp only [Bool.not_eq_true', ← Bool.not_eq_true, isCommon_iff]

variable (b) (joinSyntax : JoinSyntax)

def settled (e : JoinEdge) : JoinEdge :=
  if b.isCommon e then e else { e with kind := e.promotedKind joinSyntax }

theorem settled_eq (e : JoinEdge)
    : b.settled joinSyntax e
        =
      { e with
        kind :=
          if ¬ b.Shared e.pair ∧ e.kind = .inner ∧ joinSyntax ≠ .traditional
              ∧ ¬ (joinSyntax = .native ∧ e.hasConstants) then
            .outer
          else
            e.kind } := by
  unfold settled
  by_cases hshared : b.Shared e.pair
  · rw [if_pos (isCommon_iff.mpr hshared), if_neg (by simp [hshared])]
  · rw [if_neg (mt isCommon_iff.mp hshared), e.promotedKind_eq]
    simp [hshared]

theorem pair_settled (e : JoinEdge) : (b.settled joinSyntax e).pair = e.pair := by
  unfold settled
  split <;> rfl

theorem merge_eq
    : b.merge joinSyntax = (b.all.flatten.foldl recordEdge []).map (b.settled joinSyntax) := rfl

theorem map_pair_merge
    : (b.merge joinSyntax).map (·.pair) = (b.all.flatten.map (·.pair)).eraseDups := by
  rw [merge_eq, List.map_map, ← map_pair_foldl_recordEdge]
  simp only [Function.comp_def, pair_settled]

theorem pairsDiffer_merge : PairsDiffer (b.merge joinSyntax) := by
  have hnil : PairsDiffer [] := List.Pairwise.nil
  rw [merge_eq, PairsDiffer, List.pairwise_map]
  simpa only [JoinEdge.samePair_iff, pair_settled, PairsDiffer]
    using hnil.foldl_recordEdge b.all.flatten

theorem exists_first_of_mem_merge {f : JoinEdge} (h : f ∈ b.merge joinSyntax)
    : ∃ e, b.all.flatten.find? (·.pair = f.pair) = some e ∧ f = b.settled joinSyntax e := by
  rw [merge_eq] at h
  obtain ⟨e, he, rfl⟩ := List.mem_map.mp h
  refine ⟨e, ?_, rfl⟩
  simpa only [pair_settled] using find?_of_mem_foldl_recordEdge he

end OrBranches

namespace JoinGraph

theorem endOr_eq_ok {g : JoinGraph} {id : ScopeId} {s : Scope} {b : OrBranches}
    (hs : g.scope? id = some s) (hb : s.openOr = some b)
    : g.endOr id = .ok { g with scopes := g.scopes.set id.index (s.closeOr b) } := by
  have hscope : g.scope id = .ok s := scope_eq_ok_iff.mpr hs
  have hmodify : g.scopes.modify id.index (·.closeOr b)
      = g.scopes.set id.index (s.closeOr b) := by
    rw [List.modify_eq_set_getElem?, show g.scopes[id.index]? = some s from hs]
    rfl
  simp [endOr, openBranches, edit, modifyScope, hscope, hb, hmodify]

/--
Closing an OR adds one join for each pair of aliases that some branch joins and the scope does not,
in the order in which the pairs first came up. It is the join that came up first. If some branch
does without it, it becomes an outer join where that can be expressed, and rows may come more than
once from then on. Nothing else changes.
-/
theorem endOr_merges (g : JoinGraph) (id : ScopeId) (s : Scope) (b : OrBranches)
    (hs : g.scope? id = some s) (hb : s.openOr = some b)
    : let joins := b.all.flatten
      ∃ added : List JoinEdge,
        g.endOr id = .ok
          { g with
            scopes := g.scopes.set id.index
              { s with
                edges := s.edges ++ added
                openOr := none
                implicitDistinct :=
                  s.implicitDistinct || decide (∃ e ∈ joins, ¬ b.Shared e.pair) } }
        ∧ added.map (·.pair)
            = (joins.map (·.pair)).eraseDups.filter (· ∉ s.edges.map (·.pair))
        ∧ ∀ f ∈ added, ∃ e, joins.find? (·.pair = f.pair) = some e
            ∧ f = { e with
                kind :=
                  if ¬ b.Shared e.pair ∧ e.kind = .inner ∧ s.joinSyntax ≠ .traditional
                      ∧ ¬ (s.joinSyntax = .native ∧ e.hasConstants) then
                    .outer
                  else
                    e.kind } := by
  intro joins
  refine ⟨(b.merge s.joinSyntax).filter (·.pair ∉ s.edges.map (·.pair)), ?_, ?_, ?_⟩
  · rw [endOr_eq_ok hs hb, Scope.closeOr, OrBranches.isDivergent_eq,
      foldl_recordEdge_of_pairsDiffer (b.pairsDiffer_merge s.joinSyntax)]
  · rw [← OrBranches.map_pair_merge b s.joinSyntax, List.filter_map]
    rfl
  · intro f hf
    obtain ⟨e, hfirst, rfl⟩ := b.exists_first_of_mem_merge s.joinSyntax (List.mem_of_mem_filter hf)
    exact ⟨e, hfirst, b.settled_eq s.joinSyntax e⟩

-- The scope joins one of the pairs already, both branches join another one, and of the joins that
-- only one branch asks for the one with a constant cannot become an outer join.
theorem endOr_merges_native
    : let key (name : String) (constants : List (String × Literal)) : ForeignKey :=
        { columns := [name], referencedTable := name, primaryKeyColumns := ["ID"],
          constantColumns := constants }
      let rel (name : String) (constants : List (String × Literal)) : Relation :=
        { name, source := { name := "T" }, target := { name }, foreignKey := key name constants }
      let calls : List JoinCall :=
        [.join .root .root (rel "A" []) .inner, .beginOr .root,
          .join .root .root (rel "A" []) .outer, .join .root .root (rel "B" []) .inner,
          .join .root .root (rel "C" []) .inner, .nextOrBranch .root,
          .join .root .root (rel "D" [("KIND", .int 1)]) .inner,
          .join .root .root (rel "C" []) .outer]
      let g := (JoinGraph.new .native).afterAll calls
      let edge (name : String) (ref : Alias) (constants : List (String × Literal))
          (kind : JoinKind) : JoinEdge :=
        ⟨"T", ⟨0⟩, name, ref, key name constants, false, kind, false⟩
      let b : OrBranches :=
        { earlier := [[edge "A" ⟨1⟩ [] .outer, edge "B" ⟨2⟩ [] .inner, edge "C" ⟨3⟩ [] .inner]]
          current := [edge "D" ⟨4⟩ [("KIND", .int 1)] .inner, edge "C" ⟨3⟩ [] .outer] }
      let entry (name : String) (ref : Alias) : AliasEntry := ⟨.join .root name none, name, ref⟩
      let s : Scope :=
        { joinSyntax := .native, edges := [edge "A" ⟨1⟩ [] .inner], openOr := some b
          entries :=
            [⟨.root, "T", ⟨0⟩⟩, entry "A" ⟨1⟩, entry "B" ⟨2⟩, entry "C" ⟨3⟩, entry "D" ⟨4⟩] }
      g.scope? .root = some s ∧ s.openOr = some b
        ∧ ∃ added : List JoinEdge,
            g.endOr .root = .ok
              { g with
                scopes :=
                  [{ s with edges := s.edges ++ added, openOr := none, implicitDistinct := true }] }
            ∧ added.map (fun e => (e.pair, e.kind))
                = [(s(⟨0⟩, ⟨2⟩), .outer), (s(⟨0⟩, ⟨3⟩), .inner), (s(⟨0⟩, ⟨4⟩), .inner)] := by
  intro key rel calls g edge b entry s
  have hs : g.scope? .root = some s := by decide +kernel
  obtain ⟨added, hend, _, _⟩ := endOr_merges g .root s b hs rfl
  have hdistinct : (∃ e ∈ b.all.flatten, ¬ b.Shared e.pair) := by decide +kernel
  have hscopes : g.scopes = [s] := by decide +kernel
  have hkinds : ((g.endOr .root).toOption.bind (·.scope? .root)).map
      (fun s => (s.edges.drop 1).map fun e => (e.pair, e.kind))
        = some [(s(⟨0⟩, ⟨2⟩), .outer), (s(⟨0⟩, ⟨3⟩), .inner), (s(⟨0⟩, ⟨4⟩), .inner)] := by
    decide +kernel
  rw [hscopes] at hend
  simp only [hdistinct, decide_true, Bool.or_true] at hend
  refine ⟨hs, rfl, added, hend, ?_⟩
  rw [hend] at hkinds
  exact Option.some.inj hkinds

end JoinGraph

end SqlDialect
