import SqlDialect.Join.From
import SqlDialect.Profile.Default
import SqlDialect.Proofs.Expr.Places
import SqlDialect.Proofs.Join.Edges
import SqlDialect.Proofs.Join.Traversal

/-!
This module contains the theory of FROM clauses in which joins are clauses of their own. Such a
clause names every table of its select once, has a chain for each connected component, and has the
condition of every join at one place, where all tables that it mentions have been named.
-/

namespace SqlDialect

namespace JoinEdge

def comparisonTokens (e : JoinEdge) (pair : String × String) : List Token :=
  Token.column e.source pair.1 ++ [.raw " = "] ++ Token.column e.target pair.2 ++ [.raw ""]

def constantTokens (c : Alias × String × Literal) : Compile (List Token) :=
  (fun value => Token.column c.1 c.2.1 ++ [.raw " = ", value]) <$> c.2.2.token

def conditionTokens (e : JoinEdge) : Compile (List Token) :=
  (fun constants => [.raw " AND "].intercalate (e.columnPairs.map e.comparisonTokens ++ constants))
    <$> e.constants.mapM constantTokens

def Mentions (e : JoinEdge) (a : Alias) : Prop :=
  ∃ tokens, e.conditionTokens = .ok tokens ∧ Token.tableAlias a ∈ tokens

def comparisonText (e : JoinEdge) (p : Profile) (marker : String) (pair : String × String)
    : String :=
  Token.writeAll p
    (Token.column e.source pair.1 ++ [.raw " = "] ++ Token.column e.target pair.2 ++ [.raw marker])

theorem comparison_eq_ok (e : JoinEdge) (p : Profile) (marker : String) (pair : String × String)
    : e.comparison p marker pair = .ok (e.comparisonText p marker pair) :=
  Token.serializeAll_eq_ok (by simp [Token.column, Token.isWritable])

theorem constantComparison_eq (p : Profile) (c : Alias × String × Literal)
    : constantComparison p c = Token.writeAll p <$> constantTokens c := by
  have hwritten : constantComparison p c = do
      return Token.writeAll p (Token.column c.1 c.2.1 ++ [.raw " = ", ← c.2.2.token]) := by
    refine Compile.bind_congr_of_ok fun value hvalue => Token.serializeAll_eq_ok ?_
    have hpair : ∀ t ∈ [.raw " = ", value], t.isWritable = true :=
      List.forall_mem_cons.mpr
        ⟨rfl, List.forall_mem_singleton.mpr (Literal.isWritable_token hvalue)⟩
    exact List.forall_mem_append.mpr ⟨by simp [Token.column, Token.isWritable], hpair⟩
  rw [hwritten]
  simp [constantTokens, map_eq_pure_bind]

theorem predicate_eq (e : JoinEdge) (p : Profile) (marker : String)
    : e.predicate p marker = do
        let constants ← e.constants.mapM (constantComparison p)
        return " AND ".intercalate
          (e.columnPairs.map (e.comparisonText p marker) ++ constants) := by
  have hpairs : e.columnPairs.mapM (e.comparison p marker)
      = .ok (e.columnPairs.map (e.comparisonText p marker)) :=
    Compile.mapM_eq_ok_map fun pair => e.comparison_eq_ok p marker pair
  rw [predicate, hpairs]
  rfl

theorem predicate_eq_map_conditionTokens (e : JoinEdge) (p : Profile)
    : e.predicate p "" = Token.writeAll p <$> e.conditionTokens := by
  have hconstants : e.constants.mapM (constantComparison p)
      = List.map (Token.writeAll p) <$> e.constants.mapM constantTokens := by
    rw [← Compile.mapM_map]
    congr 1
    funext c
    exact constantComparison_eq p c
  have hpairs : e.columnPairs.map (e.comparisonText p "")
      = (e.columnPairs.map e.comparisonTokens).map (Token.writeAll p) := by
    simp [comparisonText, comparisonTokens]
  have hseparator : Token.writeAll p [.raw " AND "] = " AND " := by
    simp [Token.writeAll, Token.write]
  rw [predicate_eq, hconstants, conditionTokens]
  simp only [map_eq_pure_bind, bind_assoc, pure_bind, Token.writeAll_intercalate, hseparator,
    List.map_append, hpairs]

theorem eq_of_mem_constants {e : JoinEdge} {c : Alias × String × Literal} (h : c ∈ e.constants)
    : c.1 = e.source ∨ c.1 = e.target := by
  unfold constants at h
  split at h
  · cases h
  · split at h
    all_goals grind

theorem eq_of_mem_constantTokens {c : Alias × String × Literal} {ts : List Token} {a : Alias}
    (hts : constantTokens c = .ok ts) (ha : Token.tableAlias a ∈ ts) : a = c.1 := by
  obtain ⟨value, hvalue, rfl⟩ := Compile.map_eq_ok_iff.mp hts
  have hne : Token.tableAlias a ≠ value := by
    rintro rfl
    unfold Literal.token at hvalue
    split at hvalue
    all_goals grind
  simpa [Token.column, hne] using ha

theorem eq_of_mentions {e : JoinEdge} {a : Alias} (h : e.Mentions a)
    : a = e.source ∨ a = e.target := by
  obtain ⟨tokens, htokens, ha⟩ := h
  obtain ⟨constants, hconstants, rfl⟩ := Compile.map_eq_ok_iff.mp htokens
  obtain ha | ⟨ts, hts, ha⟩ := Token.mem_intercalate ha
  · simp at ha
  · obtain hts | hts := List.mem_append.mp hts
    · obtain ⟨pair, -, rfl⟩ := List.mem_map.mp hts
      simpa [comparisonTokens, Token.column] using ha
    · have hwritten := Compile.mapM_eq_ok_iff.mp hconstants
      obtain ⟨c, hc, hts⟩ := Compile.exists_of_mem_forall₂ hwritten ts hts
      rw [eq_of_mem_constantTokens hts ha]
      exact eq_of_mem_constants hc

def conditionText (p : Profile) (e : JoinEdge) : String := (e.predicate p "").toOption.getD ""

theorem condition?_eq_ok {p : Profile} {e : JoinEdge} {condition : Option String}
    (h : e.condition? p = .ok condition)
    : (e.kind ≠ .cross → e.predicate p "" = .ok (e.conditionText p))
        ∧ condition = if e.kind = .cross then none else some (e.conditionText p) := by
  unfold condition? at h
  split at h
  · next hcross =>
    cases h
    simp [hcross]
  · next hcross =>
    obtain ⟨t, ht, rfl⟩ := Compile.map_eq_ok_iff.mp h
    simp [hcross, conditionText, ht, Except.toOption]

end JoinEdge

/-! ## Chains with their joins -/

structure PlacedClause where
  joined : Alias
  /-- The join that brings in the table. -/
  edge : JoinEdge
  /-- The joins that close a cycle with this table. -/
  further : List JoinEdge := []

/--
A chain of join clauses, with the joins whose conditions are left for WHERE.
-/
structure PlacedChain where
  start : Alias
  clauses : List PlacedClause := []
  filters : List JoinEdge := []

namespace PlacedClause

def conditions (c : PlacedClause) : List JoinEdge :=
  (if c.edge.kind = .cross then [] else [c.edge]) ++ c.further

def toClause (text : JoinEdge → String) (c : PlacedClause) : JoinClause where
  joined := c.joined
  kind := c.edge.kind
  condition := if c.edge.kind = .cross then none else some (text c.edge)
  further := c.further.map text

/--
The text of a clause: a keyword, the table that is brought in, ON with the condition of the join,
and AND with each further condition.
-/
def text (p : Profile) (reference : Alias → String) (condition : JoinEdge → String)
    (c : PlacedClause) : String :=
  let keyword :=
    match c.edge.kind with
    | .inner => p.clauses.innerJoin
    | .outer => p.clauses.outerJoin
    | .cross => p.clauses.crossJoin
  let on :=
    if c.edge.kind ≠ .cross then
      " ON " ++ condition c.edge
    else if p.requirements.conditionForCrossJoin then
      " ON (1 = 1)"
    else
      ""
  keyword ++ " " ++ reference c.joined ++ on
    ++ String.join (c.further.map fun e => " AND " ++ condition e)

def restrict (e : JoinEdge) (c : PlacedClause) : PlacedClause :=
  if c.joined = e.target then { c with further := c.further ++ [e] } else c

@[simp]
theorem joined_restrict (e : JoinEdge) (c : PlacedClause) : (c.restrict e).joined = c.joined := by
  unfold restrict
  split <;> rfl

theorem conditions_restrict {e : JoinEdge} {c : PlacedClause} (h : c.joined = e.target)
    : (c.restrict e).conditions = c.conditions ++ [e] := by
  simp [restrict, conditions, h]

theorem restrict_of_ne {e : JoinEdge} {c : PlacedClause} (h : c.joined ≠ e.target)
    : c.restrict e = c := by
  simp [restrict, h]

theorem mem_of_mem_conditions {e : JoinEdge} {c : PlacedClause} (h : e ∈ c.conditions)
    : e ∈ c.edge :: c.further := by
  unfold conditions at h
  split at h <;> grind

theorem flatMap_restrict_perm {e : JoinEdge} {clauses : List PlacedClause}
    (hnodup : (clauses.map (·.joined)).Nodup) (hmem : e.target ∈ clauses.map (·.joined))
    : ((clauses.map (·.restrict e)).flatMap (·.conditions)).Perm
        (clauses.flatMap (·.conditions) ++ [e]) := by
  induction clauses with
  | nil => cases hmem
  | cons clause clauses ih =>
    obtain ⟨hnew, hnodup⟩ := List.nodup_cons.mp hnodup
    rw [List.map_cons, List.flatMap_cons, List.flatMap_cons]
    by_cases htarget : clause.joined = e.target
    · have hrest : clauses.map (·.restrict e) = clauses := by
        conv_rhs => rw [← List.map_id clauses]
        apply List.map_congr_left
        intro other hother
        apply restrict_of_ne
        intro heq
        exact hnew (List.mem_map.mpr ⟨other, hother, heq.trans htarget.symm⟩)
      rw [hrest, conditions_restrict htarget, List.append_assoc, List.append_assoc]
      exact List.perm_append_comm.append_left _
    · have hmem : e.target ∈ clauses.map (·.joined) :=
        (List.mem_cons.mp hmem).resolve_left fun heq => htarget heq.symm
      rw [restrict_of_ne htarget, List.append_assoc]
      exact (ih hnodup hmem).append_left _

end PlacedClause

namespace PlacedChain

def aliases (c : PlacedChain) : List Alias := c.start :: c.clauses.map (·.joined)

def conditions (c : PlacedChain) : List JoinEdge := c.clauses.flatMap (·.conditions) ++ c.filters

def toChain (text : JoinEdge → String) (c : PlacedChain) : JoinChain where
  start := c.start
  clauses := c.clauses.map (·.toClause text)
  conditions := c.filters.map text

def text (p : Profile) (reference : Alias → String) (condition : JoinEdge → String)
    (c : PlacedChain) : String :=
  " ".intercalate (reference c.start :: c.clauses.map (·.text p reference condition))

def namedBy (c : PlacedChain) (i : Nat) : List Alias := c.aliases.take (i + 2)

structure WellScoped (c : PlacedChain) : Prop where
  nodup : c.aliases.Nodup
  named : ∀ i clause, c.clauses[i]? = some clause → ∀ e ∈ clause.edge :: clause.further,
    e.source ∈ c.namedBy i ∧ e.target ∈ c.namedBy i

variable {c : PlacedChain} {text : JoinEdge → String}

@[simp]
theorem aliases_toChain (c : PlacedChain) (text : JoinEdge → String)
    : (c.toChain text).aliases = c.aliases := by
  simp [JoinChain.aliases, aliases, toChain, PlacedClause.toClause]

/-! ### Adding a join -/

def bring (c : PlacedChain) (a : Alias) (e : JoinEdge) : PlacedChain :=
  { c with clauses := c.clauses ++ [{ joined := a, edge := e }] }

def restrict (c : PlacedChain) (e : JoinEdge) : PlacedChain :=
  { c with clauses := c.clauses.map (·.restrict e) }

def leave (c : PlacedChain) (e : JoinEdge) : PlacedChain := { c with filters := c.filters ++ [e] }

def Precedes (c : PlacedChain) (a b : Alias) : Prop :=
  ∃ i j : Nat, i < j ∧ c.aliases[i]? = some a ∧ c.aliases[j]? = some b

inductive Adds (c : PlacedChain) : JoinStep → PlacedChain → Prop where
  | bring {a : Alias} {e : JoinEdge} : Adds c ⟨e, some a⟩ (c.bring a e)
  | skip {e : JoinEdge} (hcross : e.kind = .cross) : Adds c ⟨e, none⟩ c
  | restrict {e : JoinEdge} (hcross : e.kind ≠ .cross) (hprecedes : c.Precedes e.source e.target) :
      Adds c ⟨e, none⟩ (c.restrict e)
  | leave {e : JoinEdge} (hcross : e.kind ≠ .cross) : Adds c ⟨e, none⟩ (c.leave e)

@[simp]
theorem aliases_bring (c : PlacedChain) (a : Alias) (e : JoinEdge)
    : (c.bring a e).aliases = c.aliases ++ [a] := by
  simp [aliases, bring]

@[simp]
theorem aliases_restrict (c : PlacedChain) (e : JoinEdge)
    : (c.restrict e).aliases = c.aliases := by
  simp [aliases, restrict]

@[simp]
theorem namedBy_restrict (c : PlacedChain) (e : JoinEdge) (i : Nat)
    : (c.restrict e).namedBy i = c.namedBy i := by
  simp [namedBy]

theorem mem_namedBy {i j : Nat} {a : Alias} (ha : c.aliases[i]? = some a) (hij : i < j + 2)
    : a ∈ c.namedBy j := by
  unfold namedBy
  rw [← List.getElem?_take_of_lt hij] at ha
  exact List.mem_of_getElem? ha

theorem getElem?_aliases_of_clause {i : Nat} {clause : PlacedClause}
    (h : c.clauses[i]? = some clause) : c.aliases[i + 1]? = some clause.joined := by
  simp [aliases, h]

theorem WellScoped.bring (h : c.WellScoped) {a : Alias} {e : JoinEdge} (hnew : a ∉ c.aliases)
    (hsource : e.source ∈ c.aliases ++ [a]) (htarget : e.target ∈ c.aliases ++ [a])
    : (c.bring a e).WellScoped where
  nodup := by
    rw [aliases_bring, List.nodup_append]
    exact ⟨h.nodup, by simp, by grind⟩
  named := by
    intro i clause hclause e' he'
    change (c.clauses ++ [_])[i]? = _ at hclause
    unfold namedBy
    rw [aliases_bring]
    obtain hi | hi := Nat.lt_or_ge i c.clauses.length
    · rw [List.getElem?_append_left hi] at hclause
      obtain ⟨hs, ht⟩ := h.named i clause hclause e' he'
      rw [List.take_append]
      exact ⟨List.mem_append_left _ hs, List.mem_append_left _ ht⟩
    · rw [List.getElem?_append_right hi, List.getElem?_singleton] at hclause
      split at hclause
      · cases hclause
        obtain rfl : e' = e := by simpa using he'
        rw [List.take_of_length_le (by simp [aliases]; omega)]
        exact ⟨hsource, htarget⟩
      · cases hclause

theorem WellScoped.restrict (h : c.WellScoped) {e : JoinEdge}
    (hprecedes : c.Precedes e.source e.target) : (c.restrict e).WellScoped where
  nodup := by
    rw [aliases_restrict]
    exact h.nodup
  named := by
    intro i clause hclause e' he'
    rw [namedBy_restrict]
    change (c.clauses.map _)[i]? = _ at hclause
    rw [List.getElem?_map] at hclause
    obtain ⟨old, hold, rfl⟩ := Option.map_eq_some_iff.mp hclause
    by_cases hjoined : old.joined = e.target
    · have hcases : e' ∈ old.edge :: old.further ∨ e' = e := by
        simpa [PlacedClause.restrict, hjoined, or_assoc] using he'
      obtain he' | rfl := hcases
      · exact h.named i old hold e' he'
      · -- The target is named by this clause and by no other, and the source before it.
        obtain ⟨j, k, hjk, hj, hk⟩ := hprecedes
        have hi := getElem?_aliases_of_clause hold
        rw [hjoined] at hi
        have hki : k = i + 1 := by
          obtain ⟨_, hk⟩ := List.getElem?_eq_some_iff.mp hk
          obtain ⟨_, hi⟩ := List.getElem?_eq_some_iff.mp hi
          exact h.nodup.getElem_inj_iff.mp (hk.trans hi.symm)
        exact ⟨mem_namedBy hj (by omega), mem_namedBy hk (by omega)⟩
    · rw [PlacedClause.restrict_of_ne hjoined] at he'
      exact h.named i old hold e' he'

theorem WellScoped.conditions_restrict_perm (h : c.WellScoped) {e : JoinEdge}
    (hprecedes : c.Precedes e.source e.target)
    : (c.restrict e).conditions.Perm (c.conditions ++ [e]) := by
  -- The source precedes the target, so the chain does not start with the target.
  have hmem : e.target ∈ c.clauses.map (·.joined) := by
    obtain ⟨i, j, hij, _, hj⟩ := hprecedes
    obtain ⟨k, rfl⟩ : ∃ k, j = k + 1 := ⟨j - 1, by omega⟩
    exact List.mem_of_getElem? hj
  have hperm := PlacedClause.flatMap_restrict_perm (List.nodup_cons.mp h.nodup).2 hmem
  apply (hperm.append_right c.filters).trans
  rw [conditions, List.append_assoc, List.append_assoc]
  exact List.perm_append_comm.append_left _

namespace Adds

variable {step : JoinStep} {c' : PlacedChain}

theorem aliases_eq (h : c.Adds step c') : c'.aliases = c.aliases ++ step.joined.toList := by
  cases h with
  | bring => simp
  | skip => simp
  | restrict => simp
  | leave => simp [aliases, PlacedChain.leave]

theorem conditions_perm (h : c.Adds step c') (hc : c.WellScoped)
    : c'.conditions.Perm (c.conditions ++ [step.edge].filter (·.kind ≠ .cross)) := by
  cases h with
  | @bring a e =>
    have hclause : ({ joined := a, edge := e } : PlacedClause).conditions
        = [e].filter (·.kind ≠ .cross) := by
      by_cases hcross : e.kind = .cross <;> simp [PlacedClause.conditions, hcross]
    simp only [conditions, PlacedChain.bring, List.flatMap_append, List.flatMap_singleton, hclause]
    rw [List.append_assoc, List.append_assoc]
    exact List.perm_append_comm.append_left _
  | skip hcross => simp [hcross]
  | restrict hcross hprecedes => simpa [hcross] using hc.conditions_restrict_perm hprecedes
  | leave hcross => simp [hcross, conditions, PlacedChain.leave]

theorem wellScoped (h : c.Adds step c') (hc : c.WellScoped)
    (hnew : ∀ a ∈ step.joined, a ∉ c.aliases)
    (hsource : step.edge.source ∈ c'.aliases) (htarget : step.edge.target ∈ c'.aliases)
    : c'.WellScoped := by
  cases h with
  | bring =>
    rw [aliases_bring] at hsource htarget
    exact hc.bring (hnew _ rfl) hsource htarget
  | skip hcross => exact hc
  | restrict hcross hprecedes => exact hc.restrict hprecedes
  | leave hcross => exact ⟨hc.nodup, hc.named⟩

theorem brought (h : c.Adds step c') {clause : PlacedClause} (hclause : clause ∈ c'.clauses)
    : (∃ old ∈ c.clauses, clause.joined = old.joined ∧ clause.edge = old.edge)
        ∨ step = ⟨clause.edge, some clause.joined⟩ := by
  cases h with
  | bring =>
    obtain hold | hnew := List.mem_append.mp hclause
    · exact .inl ⟨clause, hold, rfl, rfl⟩
    · obtain rfl := List.mem_singleton.mp hnew
      exact .inr rfl
  | skip hcross => exact .inl ⟨clause, hclause, rfl, rfl⟩
  | @restrict e hcross hprecedes =>
    obtain ⟨old, hold, rfl⟩ := List.mem_map.mp hclause
    refine .inl ⟨old, hold, old.joined_restrict e, ?_⟩
    unfold PlacedClause.restrict
    split <;> rfl
  | leave hcross => exact .inl ⟨clause, hclause, rfl, rfl⟩

end Adds

/-! ### Chains of steps -/

theorem precedes_of_toChain {a b : Alias} (h : (c.toChain text).precedes a b) : c.Precedes a b := by
  unfold JoinChain.precedes at h
  rw [aliases_toChain] at h
  split at h
  · next i j hi hj =>
    obtain ⟨hilt, hi, _⟩ := List.idxOf?_eq_some_iff.mp hi
    obtain ⟨hjlt, hj, _⟩ := List.idxOf?_eq_some_iff.mp hj
    refine ⟨i, j, by simpa using h, ?_, ?_⟩
    · exact List.getElem?_eq_some_iff.mpr ⟨hilt, hi⟩
    · exact List.getElem?_eq_some_iff.mpr ⟨hjlt, hj⟩
  · cases h

theorem toChain_restrict (c : PlacedChain) (e : JoinEdge)
    : (c.restrict e).toChain text = (c.toChain text).restrict e.target (text e) := by
  simp only [toChain, restrict, JoinChain.restrict, List.map_map, JoinChain.mk.injEq, and_true,
    true_and]
  apply List.map_congr_left
  intro clause _
  simp only [Function.comp_apply, PlacedClause.toClause, PlacedClause.restrict]
  split <;> simp

theorem adds_of_add {p : Profile} {step : JoinStep} {chain : JoinChain}
    (h : (c.toChain (·.conditionText p)).add p step = .ok chain)
    : (step.edge.kind ≠ .cross → step.edge.predicate p "" = .ok (step.edge.conditionText p))
        ∧ ∃ c', c.Adds step c' ∧ chain = c'.toChain (·.conditionText p) := by
  obtain ⟨e, joined⟩ := step
  unfold JoinChain.add at h
  obtain ⟨condition, hcondition, h⟩ := Compile.bind_eq_ok_iff.mp h
  obtain ⟨hpredicate, rfl⟩ := JoinEdge.condition?_eq_ok hcondition
  refine ⟨hpredicate, ?_⟩
  cases joined with
  | some a =>
    cases h
    exact ⟨_, .bring, by simp [toChain, PlacedChain.bring, PlacedClause.toClause]⟩
  | none =>
    by_cases hcross : e.kind = .cross
    · simp only [hcross] at h
      cases h
      exact ⟨c, .skip hcross, rfl⟩
    · simp only [hcross, if_false] at h
      split at h
      · next hlast =>
        cases h
        exact ⟨_, .restrict hcross (precedes_of_toChain hlast.2), (toChain_restrict c e).symm⟩
      · cases h
        exact ⟨_, .leave hcross, by simp [toChain, PlacedChain.leave]⟩

structure Realizes (c : PlacedChain) (p : Profile) (d : Alias × List JoinStep) : Prop where
  wellScoped : c.WellScoped
  aliases_eq : c.aliases = Traversal.chainAliases d
  conditions_perm : c.conditions.Perm ((Traversal.chainEdges d).filter (·.kind ≠ .cross))
  predicate_eq : ∀ e ∈ Traversal.chainEdges d, e.kind ≠ .cross →
    e.predicate p "" = .ok (e.conditionText p)
  brought : ∀ clause ∈ c.clauses, ⟨clause.edge, some clause.joined⟩ ∈ d.2

theorem Realizes.start (p : Profile) (a : Alias) : Realizes { start := a } p (a, []) where
  wellScoped := ⟨by simp [aliases], by simp⟩
  aliases_eq := rfl
  conditions_perm := .refl _
  predicate_eq := by simp [Traversal.chainEdges]
  brought := by simp

theorem Realizes.add {p : Profile} {a : Alias} {steps : List JoinStep} {step : JoinStep}
    {chain : JoinChain} (hc : c.Realizes p (a, steps)) (hgrow : JoinStep.Grow c.aliases [step])
    (h : (c.toChain (·.conditionText p)).add p step = .ok chain)
    : ∃ c' : PlacedChain, c'.Realizes p (a, steps ++ [step])
        ∧ chain = c'.toChain (·.conditionText p) := by
  obtain ⟨hpredicate, c', hadds, rfl⟩ := adds_of_add h
  have haliases := hadds.aliases_eq
  have hintroduced : JoinStep.introduced [step] = step.joined.toList := by
    cases hjoined : step.joined <;> simp [JoinStep.introduced, hjoined]
  refine ⟨c', ⟨?_, ?_, ?_, ?_, ?_⟩, rfl⟩
  · have hends := hgrow.ends_mem (e := step.edge) (by simp)
    rw [hintroduced, ← haliases] at hends
    apply hadds.wellScoped hc.wellScoped _ hends.1 hends.2
    intro b hb
    apply hgrow.not_mem
    rw [hintroduced, Option.mem_toList]
    exact hb
  · rw [haliases, hc.aliases_eq, ← hintroduced]
    simp [Traversal.chainAliases]
  · apply (hadds.conditions_perm hc.wellScoped).trans
    simp only [Traversal.chainEdges, List.map_append, List.map_singleton, List.filter_append]
    exact hc.conditions_perm.append_right _
  · intro e he
    simp only [Traversal.chainEdges, List.map_append, List.map_singleton, List.mem_append,
      List.mem_singleton] at he
    obtain he | rfl := he
    · exact hc.predicate_eq e he
    · exact hpredicate
  · intro clause hclause
    obtain ⟨old, hold, hjoined, hedge⟩ | rfl := hadds.brought hclause
    · rw [hjoined, hedge]
      exact List.mem_append_left _ (hc.brought old hold)
    · exact List.mem_append_right _ (List.mem_singleton_self _)

theorem Realizes.addAll {p : Profile} {a : Alias} {steps further : List JoinStep}
    {chain : JoinChain} (hc : c.Realizes p (a, steps)) (hgrow : JoinStep.Grow c.aliases further)
    (h : further.foldlM (JoinChain.add p) (c.toChain (·.conditionText p)) = .ok chain)
    : ∃ c' : PlacedChain, c'.Realizes p (a, steps ++ further)
        ∧ chain = c'.toChain (·.conditionText p) := by
  induction further generalizing c steps with
  | nil =>
    cases h
    exact ⟨c, by simpa using hc, rfl⟩
  | cons step further ih =>
    rw [List.foldlM_cons] at h
    obtain ⟨next, hnext, h⟩ := Compile.bind_eq_ok_iff.mp h
    obtain ⟨hstep, hrest⟩ := hgrow.cons
    obtain ⟨c', hc', rfl⟩ := hc.add hstep hnext
    have haliases : c'.aliases = c.aliases ++ JoinStep.introduced [step] := by
      rw [hc'.aliases_eq, hc.aliases_eq]
      simp [Traversal.chainAliases]
    obtain ⟨c'', hc'', rfl⟩ := ih hc' (haliases ▸ hrest) h
    exact ⟨c'', by simpa using hc'', rfl⟩

theorem exists_realizes_of_ofSteps {p : Profile} {d : Alias × List JoinStep} {chain : JoinChain}
    (hgrow : JoinStep.Grow [d.1] d.2) (h : JoinChain.ofSteps p d.1 d.2 = .ok chain)
    : ∃ c : PlacedChain, c.Realizes p d ∧ chain = c.toChain (·.conditionText p) :=
  (Realizes.start p d.1).addAll hgrow h

/-! ## Clauses -/

section

variable {p : Profile} {ds : List (Alias × List JoinStep)} {chains : List PlacedChain}

theorem exists_realizes_of_mapM {written : List JoinChain}
    (hgrow : ∀ d ∈ ds, JoinStep.Grow [d.1] d.2)
    (h : ds.mapM (fun (start, steps) => JoinChain.ofSteps p start steps) = .ok written)
    : ∃ chains, List.Forall₂ (fun d (c : PlacedChain) => c.Realizes p d) ds chains
        ∧ written = chains.map (·.toChain (·.conditionText p)) := by
  replace h := Compile.mapM_eq_ok_iff.mp h
  induction h with
  | nil => exact ⟨[], .nil, rfl⟩
  | @cons d chain ds written hchain _ ih =>
    obtain ⟨c, hc, rfl⟩ := exists_realizes_of_ofSteps (hgrow d List.mem_cons_self) hchain
    obtain ⟨chains, hchains, rfl⟩ := ih fun d hd => hgrow d (List.mem_cons_of_mem _ hd)
    exact ⟨c :: chains, .cons hc hchains, rfl⟩

theorem flatMap_aliases_eq (h : List.Forall₂ (fun d (c : PlacedChain) => c.Realizes p d) ds chains)
    : chains.flatMap (·.aliases) = ds.flatMap Traversal.chainAliases := by
  induction h with
  | nil => rfl
  | cons hc _ ih => rw [List.flatMap_cons, List.flatMap_cons, ih, hc.aliases_eq]

theorem flatMap_conditions_perm
    (h : List.Forall₂ (fun d (c : PlacedChain) => c.Realizes p d) ds chains)
    : (chains.flatMap (·.conditions)).Perm
        ((ds.flatMap Traversal.chainEdges).filter (·.kind ≠ .cross)) := by
  induction h with
  | nil => exact .refl _
  | cons hc _ ih =>
    rw [List.flatMap_cons, List.flatMap_cons, List.filter_append]
    exact hc.conditions_perm.append ih

theorem predicate_eq_of_realizes
    (h : List.Forall₂ (fun d (c : PlacedChain) => c.Realizes p d) ds chains)
    : ∀ e ∈ ds.flatMap Traversal.chainEdges, e.kind ≠ .cross →
        e.predicate p "" = .ok (e.conditionText p) := by
  induction h with
  | nil => simp
  | cons hc _ ih =>
    intro e he
    obtain he | he := List.mem_append.mp he
    · exact hc.predicate_eq e he
    · exact ih e he

end

structure Covers (chains : List PlacedChain) (aliases : List Alias) (edges : List JoinEdge) :
    Prop where
  /-- Every table is named once. -/
  nodup_aliases : (chains.flatMap (·.aliases)).Nodup
  mem_aliases : ∀ a, a ∈ chains.flatMap (·.aliases) ↔ a ∈ aliases
  /-- Every chain is a connected component. -/
  connected : ∀ c ∈ chains, ∀ a ∈ c.aliases, ∀ b, b ∈ c.aliases ↔ Connected edges a b
  /-- Every condition stands at one place. -/
  nodup_conditions : (chains.flatMap (·.conditions)).Nodup
  mem_conditions : ∀ e, e ∈ chains.flatMap (·.conditions) ↔ e ∈ edges ∧ e.kind ≠ .cross
  /-- A condition in a clause mentions tables that have been named by then. -/
  named : ∀ c ∈ chains, ∀ i clause, c.clauses[i]? = some clause →
    ∀ e ∈ clause.conditions, ∀ a, e.Mentions a → a ∈ c.namedBy i

theorem covers_of_realizes {p : Profile} {aliases : List Alias} {edges : List JoinEdge}
    {chains : List PlacedChain} (hnodup : edges.Nodup)
    (hends : ∀ e ∈ edges, e.source ∈ aliases ∧ e.target ∈ aliases)
    (h : List.Forall₂ (fun d (c : PlacedChain) => c.Realizes p d)
      (Traversal.chains { remaining := edges } aliases) chains)
    : Covers chains aliases edges := by
  have hperm := Traversal.perm_chains (Traversal.frontier_start edges) aliases
    fun e he => (hends e he).1
  have hconditions := (flatMap_conditions_perm h).trans (hperm.filter _)
  have hmem := Compile.exists_of_mem_forall₂ h
  refine ⟨?_, ?_, ?_, ?_, ?_, ?_⟩
  · rw [flatMap_aliases_eq h]
    exact (Traversal.nodup_chains (Traversal.frontier_start edges) aliases).1
  · intro a
    rw [flatMap_aliases_eq h]
    exact Traversal.mem_chains_iff hends
  · intro c hc a ha b
    obtain ⟨d, hd, hrealizes⟩ := hmem c hc
    rw [hrealizes.aliases_eq] at ha ⊢
    exact Traversal.mem_chainAliases_iff hends hd ha
  · exact hconditions.nodup_iff.mpr (hnodup.filter _)
  · intro e
    rw [hconditions.mem_iff]
    simp
  · intro c hc i clause hclause e he a ha
    obtain ⟨d, hd, hrealizes⟩ := hmem c hc
    obtain ⟨hs, ht⟩ := hrealizes.wellScoped.named i clause hclause e
      (PlacedClause.mem_of_mem_conditions he)
    obtain rfl | rfl := JoinEdge.eq_of_mentions ha
    · exact hs
    · exact ht

end PlacedChain

namespace JoinGraph

variable {g : JoinGraph} {p : Profile} {hint : Option String}

theorem ends_mem_of_isLocal {s : Scope} {e : JoinEdge} (h : s.isLocal e)
    : e.source ∈ s.aliases ∧ e.target ∈ s.aliases := by
  simp only [Scope.isLocal, Scope.owns, Bool.and_eq_true, List.contains_iff_mem] at h
  exact ⟨h.1.2, h.2⟩

def hintText : Option String → String
  | none => ""
  | some hint => " " ++ hint

def referenceText (g : JoinGraph) (p : Profile) (hint : Option String) (a : Alias) : String :=
  p.quoteIdentifier ((g.table? a).getD "") ++ " " ++ toString a ++ hintText hint

theorem tableReference_eq_ok (a : Alias)
    : g.tableReference p hint a = .ok (g.referenceText p hint a) := by
  unfold tableReference
  rw [Token.serializeAll_eq_ok]
  · cases hint <;>
      simp [referenceText, Token.writeAll, Token.write, hintText, String.append_assoc]
  · cases hint <;> simp [Token.isWritable]

theorem referenceText_eq {a : Alias} {table : String} (h : g.table? a = some table)
    (hint : Option String)
    : g.referenceText p hint a
        =
      p.quoteIdentifier table ++ " " ++ toString a ++ hintText hint := by
  rw [referenceText, h]
  rfl

theorem listedFrom_eq (aliases : List Alias) (edges : List JoinEdge)
    (predicate : JoinEdge → Compile String)
    : g.listedFrom p hint aliases edges predicate = do
        let conditions ← (edges.filter (·.kind ≠ .cross)).mapM predicate
        return ⟨", ".intercalate (aliases.map (g.referenceText p hint)), conditions⟩ := by
  have haliases : aliases.mapM (g.tableReference p hint)
      = .ok (aliases.map (g.referenceText p hint)) :=
    Compile.mapM_eq_ok_map fun a => tableReference_eq_ok a
  unfold listedFrom
  rw [haliases]
  rfl

theorem exists_writeChains (g : JoinGraph) (p : Profile) (hint : Option String)
    (chains : List JoinChain) : ∃ texts, chains.mapM (g.writeChain p hint) = .ok texts := by
  rw [Compile.exists_mapM_eq_ok_iff]
  intro c _
  have hclauses : ∃ texts, c.clauses.mapM (g.writeClause p hint) = .ok texts := by
    rw [Compile.exists_mapM_eq_ok_iff]
    intro clause _
    rw [writeClause, tableReference_eq_ok]
    exact ⟨_, rfl⟩
  rw [writeChain, tableReference_eq_ok, Compile.ok_bind]
  exact Compile.exists_bind hclauses fun _ => ⟨_, rfl⟩

theorem writeClause_toClause (condition : JoinEdge → String) (c : PlacedClause)
    : g.writeClause p hint (c.toClause condition)
        =
      .ok (c.text p (g.referenceText p hint) condition) := by
  have hfurther : c.further.map ((" AND " ++ ·) ∘ condition)
      = c.further.map fun e => " AND " ++ condition e := rfl
  unfold writeClause PlacedClause.text PlacedClause.toClause
  rw [tableReference_eq_ok]
  cases hkind : c.edge.kind <;> simp [hfurther, toString, String.append_assoc]

theorem writeChain_toChain (condition : JoinEdge → String) (c : PlacedChain)
    : g.writeChain p hint (c.toChain condition)
        =
      .ok (c.text p (g.referenceText p hint) condition) := by
  have hclauses : (c.clauses.map (·.toClause condition)).mapM (g.writeClause p hint)
      = .ok (c.clauses.map (·.text p (g.referenceText p hint) condition)) := by
    rw [List.mapM_map]
    exact Compile.mapM_eq_ok_map fun clause => writeClause_toClause condition clause
  unfold writeChain PlacedChain.text PlacedChain.toChain
  rw [tableReference_eq_ok, hclauses]
  rfl

theorem exists_realizes_of_chainedFrom {aliases : List Alias} {edges : List JoinEdge}
    {clause : FromClause} (h : g.chainedFrom p hint aliases edges = .ok clause)
    : ∃ chains : List PlacedChain,
        List.Forall₂ (fun d (c : PlacedChain) => c.Realizes p d)
          (Traversal.chains { remaining := edges } aliases) chains
        ∧ clause = {
            sql := ", ".intercalate
              (chains.map (·.text p (g.referenceText p hint) (·.conditionText p)))
            conditions := (chains.flatMap (·.filters)).map (·.conditionText p) } := by
  unfold chainedFrom at h
  obtain ⟨written, hwritten, h⟩ := Compile.bind_eq_ok_iff.mp h
  obtain ⟨chains, hchains, rfl⟩ := PlacedChain.exists_realizes_of_mapM
    (Traversal.grow_chains (Traversal.frontier_start edges) aliases) hwritten
  have hsql : (chains.map (·.toChain (·.conditionText p))).mapM (g.writeChain p hint)
      = .ok (chains.map (·.text p (g.referenceText p hint) (·.conditionText p))) := by
    rw [List.mapM_map]
    exact Compile.mapM_eq_ok_map fun c => writeChain_toChain (·.conditionText p) c
  rw [hsql] at h
  cases h
  refine ⟨chains, hchains, ?_⟩
  simp [List.flatMap_map, List.map_flatMap, PlacedChain.toChain]

theorem chainedFrom_eq_ok {aliases : List Alias} {edges : List JoinEdge} {clause : FromClause}
    (hnodup : edges.Nodup) (hends : ∀ e ∈ edges, e.source ∈ aliases ∧ e.target ∈ aliases)
    (h : g.chainedFrom p hint aliases edges = .ok clause)
    : ∃ chains : List PlacedChain, PlacedChain.Covers chains aliases edges
        ∧ (∀ e ∈ edges, e.kind ≠ .cross → e.predicate p "" = .ok (e.conditionText p))
        ∧ clause = {
            sql := ", ".intercalate
              (chains.map (·.text p (g.referenceText p hint) (·.conditionText p)))
            conditions := (chains.flatMap (·.filters)).map (·.conditionText p) } := by
  obtain ⟨chains, hchains, hclause⟩ := exists_realizes_of_chainedFrom h
  have hperm := Traversal.perm_chains (Traversal.frontier_start edges) aliases
    fun e he => (hends e he).1
  refine ⟨chains, PlacedChain.covers_of_realizes hnodup hends hchains, ?_, hclause⟩
  intro e he
  exact PlacedChain.predicate_eq_of_realizes hchains e (hperm.symm.subset he)

theorem EdgesSound.isLocal_of_root (hg : g.EdgesSound) {s : Scope} (hs : g.scope? .root = some s)
    {e : JoinEdge} (he : e ∈ s.edges) : s.isLocal e := by
  have hroot : s.enclosing = [] := by
    cases henclosing : s.enclosing with
    | nil => rfl
    | cons parent rest =>
      have hlt := (hg.wellFormed.nested .root s parent rest hs henclosing).1
      exact absurd hlt (Nat.not_lt_zero _)
  obtain ⟨hvalid, _⟩ := (hg.sound .root s hs s.edges List.mem_cons_self).2 e he
  have hsource := hvalid.source.mem_aliases_of_root hs hroot
  have htarget := hvalid.target.mem_aliases_of_root hs hroot
  have hcorrelated : e.correlated = false := by
    simpa [hsource, htarget] using hvalid.correlated
  simp [Scope.isLocal, Scope.owns, hsource, htarget, hcorrelated]

theorem EdgesSound.nodup_edges (hg : g.EdgesSound) {id : ScopeId} {s : Scope}
    (hs : g.scope? id = some s) : s.edges.Nodup := by
  apply (hg.sound id s hs s.edges List.mem_cons_self).1.imp
  rintro e f hdiffer rfl
  exact hdiffer (by simp [JoinEdge.samePair])

theorem chainedFrom_of_fromClause {id : ScopeId} {s : Scope} {clause : FromClause}
    (hs : g.scope? id = some s) (hwritten : s.joinSyntax = .sql92)
    (hlocal : ∀ e ∈ s.edges, s.isLocal e) (h : g.fromClause id p hint = .ok clause)
    : g.chainedFrom p hint s.aliases (s.edges.filter s.isLocal) = .ok clause := by
  have houtward : s.edges.filter (fun e => !s.isLocal e && e.kind ≠ .cross) = [] := by
    rw [List.filter_eq_nil_iff]
    intro e he
    simp [hlocal e he]
  simp only [fromClause, scope_eq_ok_iff.mpr hs, Compile.ok_bind, houtward, hwritten,
    List.mapM_nil, Compile.pure_eq_ok, List.nil_append] at h
  split at h
  · cases h
  · obtain ⟨clause', hclause, h⟩ := Compile.bind_eq_ok_iff.mp h
    cases h
    exact hclause

/--
In every reachable graph whose statement writes its joins as clauses, a FROM clause that can be
written names every table once, in a chain for each connected component, and has the condition of
every join at one place, where the tables that it mentions have been named.
-/
theorem fromClause_of_run (joinSyntax : JoinSyntax) (calls : List JoinCall) (p : Profile)
    (hint : Option String) (s : Scope) (clause : FromClause)
    : let g := (JoinGraph.new joinSyntax).afterAll calls
      g.scope? .root = some s → s.joinSyntax = .sql92 → g.fromClause .root p hint = .ok clause →
        ∃ (reference : Alias → String) (condition : JoinEdge → String) (chains : List PlacedChain),
          PlacedChain.Covers chains s.aliases (s.edges.filter s.isLocal)
          ∧ (∀ entry ∈ s.entries, reference entry.ref
              = p.quoteIdentifier entry.table ++ " " ++ toString entry.ref ++ hintText hint)
          ∧ (∀ e ∈ s.edges.filter s.isLocal, e.kind ≠ .cross →
              e.predicate p "" = .ok (condition e)
              ∧ ∃ tokens, e.conditionTokens = .ok tokens ∧ condition e = Token.writeAll p tokens)
          ∧ clause.sql = ", ".intercalate (chains.map (·.text p reference condition))
          ∧ clause.conditions = (chains.flatMap (·.filters)).map condition := by
  intro g hs hwritten h
  have hg : g.EdgesSound := (EdgesSound.new joinSyntax).afterAll calls
  have hchained := chainedFrom_of_fromClause hs hwritten (fun e he => hg.isLocal_of_root hs he) h
  obtain ⟨chains, hcovers, hpredicate, rfl⟩ := chainedFrom_eq_ok
    ((hg.nodup_edges hs).filter s.isLocal)
    (fun e he => ends_mem_of_isLocal (List.mem_filter.mp he).2) hchained
  refine ⟨g.referenceText p hint, _, chains, hcovers, ?_, ?_, rfl, rfl⟩
  · exact fun entry he => referenceText_eq (hg.wellFormed.table_eq .root s hs entry he) hint
  · intro e he hcross
    have htext := hpredicate e he hcross
    refine ⟨htext, ?_⟩
    rw [JoinEdge.predicate_eq_map_conditionTokens] at htext
    obtain ⟨tokens, htokens, h⟩ := Compile.map_eq_ok_iff.mp htext
    exact ⟨tokens, htokens, h.symm⟩

-- The last join closes a cycle, and the table that is optional in it is named last.
theorem fromClause_of_run_cycle
    : let toC : ForeignKey :=
        { columns := ["C_ID"], referencedTable := "C", primaryKeyColumns := ["ID"] }
      let toA : ForeignKey :=
        { columns := ["A_ID"], referencedTable := "A", primaryKeyColumns := ["ID"] }
      let c : Relation :=
        { name := "c", source := { name := "O" }, target := { name := "C" }, foreignKey := toC }
      let a : Relation :=
        { name := "a", source := { name := "O" }, target := { name := "A" }, foreignKey := toA }
      let back : Relation :=
        { name := "a", source := { name := "C" }, target := { name := "A" }, foreignKey := toC,
          inverse := true }
      let calls : List JoinCall :=
        [.join .root .root c .inner, .join .root .root a .outer, .join .root .root back .outer,
          .aliasFor .root { name := "D" } .root true]
      let g := (JoinGraph.new .sql92).afterAll calls
      let s : Scope :=
        { joinSyntax := .sql92
          entries :=
            [⟨.root, "O", ⟨0⟩⟩, ⟨.join .root "c" none, "C", ⟨1⟩⟩, ⟨.join .root "a" none, "A", ⟨2⟩⟩,
              ⟨.root, "D", ⟨3⟩⟩]
          edges :=
            [⟨"O", ⟨0⟩, "C", ⟨1⟩, toC, false, .inner, false⟩,
              ⟨"O", ⟨0⟩, "A", ⟨2⟩, toA, false, .outer, false⟩,
              ⟨"C", ⟨1⟩, "A", ⟨2⟩, toC, true, .outer, false⟩] }
      let clause : FromClause :=
        ⟨"O t0 INNER JOIN C t1 ON t0.C_ID = t1.ID LEFT OUTER JOIN A t2 ON t0.A_ID = t2.ID"
          ++ " AND t1.ID = t2.C_ID, D t3", []⟩
      g.scope? .root = some s ∧ g.fromClause .root Vendor.generic.profile none = .ok clause
        ∧ ∃ (reference : Alias → String) (condition : JoinEdge → String)
            (chains : List PlacedChain),
            PlacedChain.Covers chains s.aliases (s.edges.filter s.isLocal)
            ∧ (∀ entry ∈ s.entries, reference entry.ref
                = Vendor.generic.profile.quoteIdentifier entry.table ++ " " ++ toString entry.ref
                    ++ hintText none)
            ∧ (∀ e ∈ s.edges.filter s.isLocal, e.kind ≠ .cross →
                e.predicate Vendor.generic.profile "" = .ok (condition e)
                ∧ ∃ tokens, e.conditionTokens = .ok tokens
                    ∧ condition e = Token.writeAll Vendor.generic.profile tokens)
            ∧ clause.sql = ", ".intercalate
                (chains.map (·.text Vendor.generic.profile reference condition))
            ∧ clause.conditions = (chains.flatMap (·.filters)).map condition := by
  intro toC toA c a back calls g s clause
  have hs : g.scope? .root = some s := by decide +kernel
  have h : g.fromClause .root Vendor.generic.profile none = .ok clause := by decide +kernel
  exact ⟨hs, h, fromClause_of_run .sql92 calls Vendor.generic.profile none s clause hs rfl h⟩

end JoinGraph

end SqlDialect
