import SqlDialect.Proofs.Expr.Grouping
import SqlDialect.Proofs.Expr.Steps

/-!
This module contains the way back from the text of an expression. Operands are in parentheses where
they have to be, but for those of LIKE and IN. As long as these hold together without parentheses,
the tree of the text is that of the expression, with its chains grouped to the left.
-/

namespace SqlDialect

/--
The table of a column as its text tells it. A name that stands alone is that of a column of `home`.
-/
def RenderContext.tableOf (ctx : RenderContext) (home a : Alias) : Alias :=
  if ctx.qualify then a else home

theorem Literal.token_eq_ok {value : Literal} (h : value.isFinite)
    : ∃ t, value.token = .ok t ∧ t.literal? = some value := by
  cases value with
  | float x => exact ⟨.float x, if_pos h, rfl⟩
  | _ => exact ⟨_, rfl, rfl⟩

theorem Literal.token_eq_error {value : Literal} (h : value.isFinite = false)
    : ∃ x : Binary64, x.isFinite = false ∧ value.token = .error (.nonFiniteLiteral x) := by
  cases value with
  | float x => exact ⟨x, h, if_neg (ne_true_of_eq_false h)⟩
  | _ => cases h

namespace Operation

def literal? : Operation → Option Literal
  | .literal value => some value
  | _ => none

def literals (e : Operation) : List Literal := e.parts.filterMap literal?

def isOperator (p : Profile) : Operation → Bool
  | .binary .mod _ _ => p.supports .modOperator
  | _ => true

def keepsOperand : Operation → Bool
  | .like operand pattern _ _ =>
    Level.comparison.rank ≤ operand.level.rank && Level.sum.rank ≤ pattern.level.rank
  | .inList operand _ _ => Level.comparison.rank ≤ operand.level.rank
  | _ => true

/-! ## Precedences and levels -/

-- Precedences and ranks differ in their numbers only, but for NOT, which has the precedence of AND,
-- and for the minus sign, which has that of a column.
theorem precedence_and_rank (e : Operation)
    : (e.toExpr.precedence, e.level.rank)
        ∈ [(1, 1), (2, 2), (2, 3), (3, 4), (4, 5), (5, 6), (6, 7), (6, 8)] := by
  cases e with
  | binary op l r =>
    change (op.precedence, op.level.rank) ∈ _
    cases op <;> decide
  | unary op e => cases op <;> exact List.mem_of_elem_eq_true rfl
  | _ => exact List.mem_of_elem_eq_true rfl

theorem Level.eq_of_rank_eq {level level' : Level} (h : level.rank = level'.rank)
    : level = level' := by
  cases level <;> cases level' <;> first | rfl | cases h

theorem precedence_and_rank_op (op : BinaryOp)
    : (op.precedence, op.level.rank) ∈ [(1, 1), (2, 2), (3, 4), (4, 5), (5, 6)] := by
  cases op <;> decide

theorem precedence_lt_iff (op : BinaryOp) (e : Operation)
    : e.toExpr.precedence < op.precedence ↔ e.level.rank < op.level.rank := by
  have he := precedence_and_rank e
  have hop := precedence_and_rank_op op
  simp only [List.mem_cons, Prod.mk.injEq, List.not_mem_nil, or_false] at he hop
  omega

def needsParens (op : BinaryOp) (right : Operation) : Bool :=
  right.level.rank < op.level.rank || (right.level = op.level) && !op.isAssociative

theorem needsParens_eq (op : BinaryOp) (e : Operation)
    : (e.toExpr.precedence < op.precedence
        || e.toExpr.precedence == op.precedence && !op.isAssociative) = needsParens op e := by
  cases hassoc : op.isAssociative with
  | true => simp [needsParens, hassoc, precedence_lt_iff]
  | false =>
    have he := precedence_and_rank e
    have hop : (op.precedence, op.level.rank) ∈ [(3, 4), (4, 5), (5, 6)] := by
      cases op <;> first | decide | cases hassoc
    have hlevel : e.level = op.level ↔ e.level.rank = op.level.rank :=
      ⟨congrArg Level.rank, Level.eq_of_rank_eq⟩
    simp only [List.mem_cons, Prod.mk.injEq, List.not_mem_nil, or_false] at he hop
    rw [needsParens, hassoc, Bool.eq_iff_iff]
    simp only [Bool.not_false, Bool.and_true, Bool.or_eq_true, decide_eq_true_eq, beq_iff_eq,
      hlevel]
    omega

/-! ## Texts -/

def signWord : UnaryOp → Token
  | .not => .keyword .not
  | .neg => .symbol .minus

def escapeWords (escape : Option Char) : List Token :=
  match escape with
  | some c => [.keyword .escape, .string c.toString]
  | none => []

section Texts

variable {ctx : RenderContext} {f : Fragment}

theorem words_ofTokens (ts : List Token)
    : (Fragment.ofTokens ts).words = ts.filter (· ≠ .space) := rfl

theorem words_negation (negated : Bool) (word : Keyword)
    : (Fragment.ofTokens (.space :: Expr.negation negated ++ [.keyword word, .space])).words
        =
      notWords negated ++ [.keyword word] := by
  cases negated <;> rfl

theorem of_fragment_literal {value : Literal}
    (h : (literal value).toExpr.fragment ctx = .ok f)
    : ∃ t, t.literal? = some value ∧ f.words = [t] ∧ f.params = [] := by
  simp only [toExpr, Expr.fragment, Compile.bind_eq_ok_iff, Compile.pure_eq_ok] at h
  obtain ⟨t, ht, hf⟩ := h
  cases hf
  have hvalue : t.literal? = some value := by
    cases hfinite : value.isFinite with
    | true =>
      obtain ⟨t', ht', hvalue⟩ := Literal.token_eq_ok hfinite
      cases ht.symm.trans ht'
      exact hvalue
    | false =>
      obtain ⟨x, -, herror⟩ := Literal.token_eq_error hfinite
      cases ht.symm.trans herror
  have hspace : t ≠ .space := by
    rintro rfl
    cases hvalue
  exact ⟨t, hvalue, by simp [words_ofTokens, hspace], rfl⟩

theorem of_fragment_binary {op : BinaryOp} {l r : Operation}
    (hop : (binary op l r).isOperator ctx.profile)
    (h : (binary op l r).toExpr.fragment ctx = .ok f)
    : ∃ g k, l.toExpr.fragment ctx = .ok g ∧ r.toExpr.fragment ctx = .ok k
        ∧ f.words = (g.parensIf (l.level.rank < op.level.rank)).words ++ op.token ::
            (k.parensIf (needsParens op r)).words
        ∧ f.params = g.params ++ k.params := by
  have hmod : ¬ (op = .mod ∧ ¬ ctx.profile.supports .modOperator) := by
    rintro ⟨rfl, hmod⟩
    exact hmod hop
  have hwords : (Fragment.ofTokens [.space, op.token, .space]).words = [op.token] := by
    cases op <;> rfl
  simp only [toExpr, Expr.fragment, Compile.bind_eq_ok_iff, Compile.pure_eq_ok, if_neg hmod,
    needsParens_eq] at h
  simp only [precedence_lt_iff] at h
  obtain ⟨g, hg, k, hk, hf⟩ := h
  cases hf
  exact ⟨g, k, hg, hk, by simp [hwords], by simp⟩

theorem of_fragment_unary {op : UnaryOp} {e : Operation}
    (h : (unary op e).toExpr.fragment ctx = .ok f)
    : ∃ g, e.toExpr.fragment ctx = .ok g
        ∧ f.words = signWord op :: (g.parensIf (e.level.rank < Level.sign.rank)).words
        ∧ f.params = g.params := by
  have hlevel : e.toExpr.precedence < 6 ↔ e.level.rank < Level.sign.rank := by
    have he := precedence_and_rank e
    simp only [List.mem_cons, Prod.mk.injEq, List.not_mem_nil, or_false] at he
    change _ ↔ _ < 7
    omega
  simp only [toExpr, Expr.fragment, Compile.bind_eq_ok_iff, Compile.pure_eq_ok, hlevel] at h
  obtain ⟨g, hg, hf⟩ := h
  cases hf
  refine ⟨g, hg, ?_, by simp⟩
  rw [Fragment.words_append]
  cases op <;> rfl

theorem of_fragment_isNull {e : Operation} {negated : Bool}
    (h : (isNull e negated).toExpr.fragment ctx = .ok f)
    : ∃ g, e.toExpr.fragment ctx = .ok g
        ∧ f.words = (g.parensIf (e.level.rank ≤ Level.comparison.rank)).words
            ++ [.nullTest negated]
        ∧ f.params = g.params := by
  have hlevel : e.toExpr.precedence ≤ 3 ↔ e.level.rank ≤ Level.comparison.rank := by
    have he := precedence_and_rank e
    simp only [List.mem_cons, Prod.mk.injEq, List.not_mem_nil, or_false] at he
    change _ ↔ _ ≤ 4
    omega
  simp only [toExpr, Expr.fragment, Compile.bind_eq_ok_iff, Compile.pure_eq_ok, hlevel] at h
  obtain ⟨g, hg, hf⟩ := h
  cases hf
  refine ⟨g, hg, ?_, by simp⟩
  rw [Fragment.words_append]
  cases negated <;> rfl

theorem of_fragment_like {e pattern : Operation} {escape : Option Char} {negated : Bool}
    (h : (like e pattern escape negated).toExpr.fragment ctx = .ok f)
    : ∃ g k, e.toExpr.fragment ctx = .ok g ∧ pattern.toExpr.fragment ctx = .ok k
        ∧ f.words = g.words ++ notWords negated ++ .keyword .like :: (k.words ++ escapeWords escape)
        ∧ f.params = g.params ++ k.params := by
  simp only [toExpr, Expr.fragment, Compile.bind_eq_ok_iff, Compile.pure_eq_ok] at h
  obtain ⟨g, hg, k, hk, hf⟩ := h
  cases hf
  refine ⟨g, k, hg, hk, ?_, by simp⟩
  rw [Fragment.words_append, Fragment.words_append, Fragment.words_append, words_negation]
  cases escape <;> simp [escapeWords, words_ofTokens]

theorem toExprs_eq (es : List Operation) : toExprs es = es.map toExpr := by
  induction es with
  | nil => rfl
  | cons e es ih => rw [toExprs, ih, List.map_cons]

theorem of_fragment_inList {e : Operation} {values : List Operation} {negated : Bool}
    (h : (inList e values negated).toExpr.fragment ctx = .ok f)
    : ∃ g gs, e.toExpr.fragment ctx = .ok g
        ∧ List.Forall₂ (fun v k => v.toExpr.fragment ctx = .ok k) values gs
        ∧ f.words = g.words ++ notWords negated ++ .keyword .in_ ::
            Token.parens (Fragment.commaSep gs).words
        ∧ f.params = g.params ++ gs.flatMap (·.params) := by
  simp only [toExpr, Expr.fragment, Compile.bind_eq_ok_iff, Compile.pure_eq_ok] at h
  obtain ⟨g, hg, gs, hgs, hf⟩ := h
  cases hf
  refine ⟨g, gs, hg, ?_, ?_, ?_⟩
  · rw [Expr.fragments_eq, toExprs_eq, Compile.mapM_eq_ok_iff, List.forall₂_map_left_iff] at hgs
    exact hgs
  · rw [Fragment.words_append, Fragment.words_append, words_negation, Fragment.words_parens]
    simp
  · simp [Fragment.parens, Fragment.commaSep, Fragment.separated]

/-! Only a literal that is not finite keeps an expression from having a text. -/

theorem steps_toExpr (e : Operation)
    : e.toExpr.steps = e.literals.map fun value => .ofCompile value.token := by
  induction e with
  | column | param => rfl
  | literal value => rfl
  | binary op l r ihl ihr =>
    simp [toExpr, Expr.steps, ihl, ihr, literals, parts, List.filterMap_cons, literal?]
  | unary op e ih => simp [toExpr, Expr.steps, ih, literals, parts, List.filterMap_cons, literal?]
  | isNull e negated ih =>
    simp [toExpr, Expr.steps, ih, literals, parts, List.filterMap_cons, literal?]
  | like e pattern escape negated ihe ihpattern =>
    simp [toExpr, Expr.steps, ihe, ihpattern, literals, parts, List.filterMap_cons, literal?]
  | inList e values negated ihe ihvalues =>
    have hvalues : Expr.allSteps (toExprs values)
        = ((partsOfAll values).filterMap literal?).map fun value => .ofCompile value.token := by
      rw [Expr.allSteps_eq_flatMap, toExprs_eq, List.flatMap_map, List.flatMap_congr ihvalues,
        partsOfAll_eq, List.filterMap_flatMap, List.map_flatMap]
      rfl
    simp [toExpr, Expr.steps, ihe, hvalues, literals, parts, List.filterMap_cons, literal?]

def isFinite (e : Operation) : Bool := e.literals.all (·.isFinite)

theorem sequenced_fragment (ctx : RenderContext) (e : Operation)
    : Sequenced (e.literals.map fun value => .ofCompile value.token)
        fun subselect => e.toExpr.fragment { ctx with subselect } := by
  rw [← steps_toExpr]
  exact Expr.sequenced_fragment ctx e.toExpr

theorem exists_fragment (ctx : RenderContext) {e : Operation} (he : e.isFinite)
    : ∃ f, e.toExpr.fragment ctx = .ok f := by
  apply (sequenced_fragment ctx e).exists_ok_iff.mpr
  simp only [List.forall_mem_map]
  intro value hvalue
  obtain ⟨t, ht, -⟩ := Literal.token_eq_ok (List.all_eq_true.mp he value hvalue)
  rw [ht]
  exact ⟨_, rfl⟩

theorem fragment_eq_error (ctx : RenderContext) {e : Operation} (he : ¬ e.isFinite)
    : ∃ x : Binary64, ¬ x.isFinite ∧ e.toExpr.fragment ctx = .error (.nonFiniteLiteral x) := by
  have hsequenced := sequenced_fragment ctx e
  cases hresult : e.toExpr.fragment ctx with
  | ok f =>
    have hsteps := hsequenced.exists_ok_iff.mp ⟨f, hresult⟩
    apply absurd (List.all_eq_true.mpr _) he
    intro value hvalue
    obtain ⟨r, hr⟩ := hsteps _ (List.mem_map_of_mem hvalue)
    by_contra hfinite
    obtain ⟨x, -, hx⟩ := Literal.token_eq_error (Bool.eq_false_iff.mpr hfinite)
    rw [hx] at hr
    cases hr
  | error error =>
    obtain ⟨before, step, after, hliterals, -, hstep⟩ := hsequenced.eq_error_iff.mp hresult
    have hmem : step ∈ e.literals.map fun value => RenderStep.ofCompile value.token := by
      simp [hliterals]
    obtain ⟨value, -, rfl⟩ := List.mem_map.mp hmem
    cases hfinite : value.isFinite with
    | true =>
      obtain ⟨t, ht, -⟩ := Literal.token_eq_ok hfinite
      rw [ht] at hstep
      cases hstep
    | false =>
      obtain ⟨x, hx, htoken⟩ := Literal.token_eq_error hfinite
      rw [htoken] at hstep
      cases hstep
      exact ⟨x, by simp [hx], rfl⟩

end Texts

/-! ## Chains -/

variable {home : Alias}

/--
Operands with operators of one level between them, as they are read from left to right.
-/
inductive Chain (home : Alias) (level : Level) :
    List Token → List String → Operation → Prop where
  | first {tighter : Level} {ts : List Token} {ps : List String} {e : Operation}
      (hrank : level.rank < tighter.rank) (hlevel : e.level ≠ level)
      (h : Derives home (.expression tighter) ts ps e) : Chain home level ts ps e
  | next {op : BinaryOp} {ts us : List Token} {ps qs : List String} {l r : Operation}
      (hop : op.level = level) (hl : Chain home level ts ps l)
      (hr : Derives home (.expression op.rightLevel) us qs r) :
      Chain home level (ts ++ op.token :: us) (ps ++ qs) (.binary op l r)

variable {level : Level} {ts us : List Token} {ps qs : List String} {e x : Operation}

theorem Chain.derives (h : Chain home level ts ps e)
    : Derives home (.expression level) ts ps e := by
  induction h with
  | first hrank hlevel h => exact .loosen (Nat.le_of_lt hrank) h
  | next hop hl hr ih =>
    subst hop
    exact .binary ih hr

theorem Chain.graft {op : BinaryOp} (hx : Chain home op.level ts ps x)
    (he : Chain home op.level us qs e)
    : Chain home op.level (ts ++ op.token :: us) (ps ++ qs) (Operation.graft op x e) := by
  induction he with
  | @first tighter us qs e hrank hlevel h =>
    rw [graft_of_level_ne x hlevel]
    apply Chain.next rfl hx
    apply Derives.loosen _ h
    rw [BinaryOp.rank_rightLevel]
    omega
  | @next op' us us' qs qs' l r hop hl hr ih =>
    rw [Operation.graft, if_pos hop]
    simpa using Chain.next hop ih hr

theorem Derives.parensIf {level tighter : Level} {f : Fragment} {needed : Bool}
    (h : Derives home (.expression tighter) f.words ps e)
    (hneeded : needed = false → level.rank ≤ tighter.rank)
    : Derives home (.expression level) (f.parensIf needed).words ps e := by
  cases needed with
  | false => exact .loosen (hneeded rfl) h
  | true =>
    apply Derives.loosen level.rank_le_primary
    rw [Fragment.parensIf, if_pos rfl, Fragment.words_parens]
    exact .parens (.loosen (Level.disjunction_le_rank _) h)

/--
A fragment is the text of an expression that stands at its level. If that is the level of an
operator, it is a chain, unless a comparison is made.
-/
structure IsTextOf (home : Alias) (f : Fragment) (e : Operation) : Prop where
  derives : Derives home (.expression e.level) f.words f.params e
  chain (op : BinaryOp) (hop : op.level ≠ .comparison) (hlevel : e.level = op.level) :
    Chain home op.level f.words f.params e

theorem words_commaSep_cons (f : Fragment) (fs : List Fragment)
    : (Fragment.commaSep (f :: fs)).words
        =
      f.words ++ fs.flatMap fun g => .symbol .comma :: g.words := by
  induction fs generalizing f with
  | nil => simp [Fragment.commaSep, Fragment.separated, Fragment.words]
  | cons g fs ih =>
    have hcons : (Fragment.commaSep (f :: g :: fs)).words
        = f.words ++ .symbol .comma :: (Fragment.commaSep (g :: fs)).words := by
      simp [Fragment.commaSep, Fragment.separated, Fragment.words]
    rw [hcons, ih, List.flatMap_cons, List.cons_append]

theorem Derives.values {gs : List Fragment} {before values : List Operation} {negated : Bool}
    (h : Derives home .openList ts ps (.inList e before negated))
    (hvalues : List.Forall₂ (fun v g => IsTextOf home g v) values gs)
    : Derives home .openList (ts ++ gs.flatMap fun g => .symbol .comma :: g.words)
        (ps ++ gs.flatMap (·.params)) (.inList e (before ++ values) negated) := by
  induction hvalues generalizing ts ps before with
  | nil => simpa using h
  | cons hv _ ih =>
    simpa using ih (h.inNext (.loosen (Level.disjunction_le_rank _) hv.derives))

namespace IsTextOf

variable {f g k : Fragment} {l r : Operation}

theorem of_derives (h : Derives home (.expression e.level) f.words f.params e)
    (hlevel : e.level ∈ [.negation, .comparison, .sign, .primary]) : IsTextOf home f e := by
  refine ⟨h, fun op hop heq => ?_⟩
  rw [heq] at hlevel
  cases op <;> simp_all [BinaryOp.level]

theorem operand (h : IsTextOf home f e) {op : BinaryOp} (hop : op.level ≠ .comparison)
    : Chain home op.level (f.parensIf (e.level.rank < op.level.rank)).words f.params e := by
  by_cases hlevel : e.level = op.level
  · rw [hlevel]
    simpa [Fragment.parensIf] using h.chain op hop hlevel
  · have hrank : e.level.rank ≠ op.level.rank := fun heq => hlevel (Level.eq_of_rank_eq heq)
    have hright : op.level.rank + 1 ≤ op.rightLevel.rank := Nat.le_of_eq op.rank_rightLevel.symm
    apply Chain.first hright hlevel
    apply h.derives.parensIf
    intro hneeded
    rw [op.rank_rightLevel]
    simp only [decide_eq_false_iff_not] at hneeded
    omega

theorem rightOperand (h : IsTextOf home f e) {op : BinaryOp} (hop : op.isAssociative = false)
    : Derives home (.expression op.rightLevel) (f.parensIf (needsParens op e)).words f.params
        e := by
  apply h.derives.parensIf
  intro hneeded
  simp only [needsParens, hop, Bool.not_false, Bool.and_true, Bool.or_eq_false_iff,
    decide_eq_false_iff_not] at hneeded
  obtain ⟨hlt, hlevel⟩ := hneeded
  have hrank : e.level.rank ≠ op.level.rank := fun heq => hlevel (Level.eq_of_rank_eq heq)
  rw [op.rank_rightLevel]
  omega

theorem binary (op : BinaryOp) (hl : IsTextOf home g l) (hr : IsTextOf home k r)
    (hwords : f.words = (g.parensIf (l.level.rank < op.level.rank)).words ++ op.token ::
      (k.parensIf (needsParens op r)).words)
    (hparams : f.params = g.params ++ k.params)
    : IsTextOf home f (if op.isAssociative then Operation.graft op l r else .binary op l r) := by
  cases hassoc : op.isAssociative with
  | true =>
    have hop : op.level ≠ .comparison := by
      cases op <;> simp_all [BinaryOp.isAssociative, BinaryOp.level]
    have hneeds : needsParens op r = decide (r.level.rank < op.level.rank) := by
      simp [needsParens, hassoc]
    have hchain : Chain home op.level f.words f.params (Operation.graft op l r) := by
      rw [hwords, hparams, hneeds]
      exact (hl.operand hop).graft (hr.operand hop)
    rw [if_pos rfl]
    refine ⟨?_, fun op' hop' hlevel => ?_⟩
    · rw [level_graft]
      exact hchain.derives
    · rw [level_graft] at hlevel
      exact hlevel ▸ hchain
  | false =>
    have hright := hr.rightOperand hassoc
    rw [if_neg Bool.false_ne_true]
    refine ⟨?_, fun op' hop' hlevel => ?_⟩
    · rw [hwords, hparams]
      refine .binary (hl.derives.parensIf ?_) hright
      simp
    · change op.level = op'.level at hlevel
      rw [← hlevel] at hop' ⊢
      rw [hwords, hparams]
      exact .next rfl (hl.operand hop') hright

theorem unary (op : UnaryOp) (h : IsTextOf home g e)
    (hwords : f.words = signWord op :: (g.parensIf (e.level.rank < Level.sign.rank)).words)
    (hparams : f.params = g.params) : IsTextOf home f (.unary op e) := by
  have hoperand : Derives home (.expression .sign)
      (g.parensIf (e.level.rank < Level.sign.rank)).words g.params e := by
    apply h.derives.parensIf
    simp
  cases op with
  | not =>
    apply of_derives _ (by simp [level])
    rw [hwords, hparams]
    exact .not (.loosen (by decide) hoperand)
  | neg =>
    apply of_derives _ (by simp [level])
    rw [hwords, hparams]
    exact .neg hoperand

theorem isNull {negated : Bool} (h : IsTextOf home g e)
    (hwords : f.words = (g.parensIf (e.level.rank ≤ Level.comparison.rank)).words
      ++ [.nullTest negated])
    (hparams : f.params = g.params) : IsTextOf home f (.isNull e negated) := by
  apply of_derives _ (by simp [level])
  rw [hwords, hparams]
  apply Derives.isNull negated
  apply h.derives.parensIf
  intro hneeded
  simp only [decide_eq_false_iff_not] at hneeded
  omega

theorem like {pattern : Operation} {escape : Option Char} {negated : Bool} (h : IsTextOf home g e)
    (hpattern : IsTextOf home k pattern)
    (hkeeps : (Operation.like e pattern escape negated).keepsOperand)
    (hwords : f.words = g.words ++ notWords negated ++ .keyword .like ::
      (k.words ++ escapeWords escape))
    (hparams : f.params = g.params ++ k.params)
    : IsTextOf home f (.like e pattern escape negated) := by
  simp only [keepsOperand, Bool.and_eq_true, decide_eq_true_eq] at hkeeps
  have hoperand := Derives.loosen hkeeps.1 h.derives
  have hpattern := Derives.loosen hkeeps.2 hpattern.derives
  apply of_derives _ (by simp [level])
  rw [hwords, hparams]
  cases escape with
  | none =>
    rw [escapeWords, List.append_nil]
    exact .like negated hoperand hpattern
  | some c => exact .likeEscape c negated hoperand hpattern

theorem inList {values : List Operation} {gs : List Fragment} {negated : Bool}
    (h : IsTextOf home g e) (hvalues : List.Forall₂ (fun v g => IsTextOf home g v) values gs)
    (hkeeps : (Operation.inList e values negated).keepsOperand)
    (hwords : f.words = g.words ++ notWords negated ++ .keyword .in_ ::
      Token.parens (Fragment.commaSep gs).words)
    (hparams : f.params = g.params ++ gs.flatMap (·.params))
    : IsTextOf home f (.inList e values negated) := by
  simp only [keepsOperand, decide_eq_true_eq] at hkeeps
  have hoperand := Derives.loosen hkeeps h.derives
  apply of_derives _ (by simp [level])
  rw [hwords, hparams]
  cases hvalues with
  | nil =>
    rw [List.flatMap_nil, List.append_nil]
    exact .inNothing negated hoperand
  | @cons v k values gs hv hvalues =>
    have hfirst := hoperand.inFirst negated (.loosen (Level.disjunction_le_rank _) hv.derives)
    have hlast := (hfirst.values hvalues).inLast
    simpa [level, Token.parens, words_commaSep_cons] using hlast

end IsTextOf

def hasOperators (p : Profile) (e : Operation) : Bool := e.parts.all (isOperator p)

theorem hasOperators_of_supports {p : Profile} (h : p.supports .modOperator) (e : Operation)
    : e.hasOperators p := by
  apply List.all_eq_true.mpr
  intro d _
  cases d with
  | binary op l r => cases op <;> first | rfl | exact h
  | _ => rfl

def keepsOperands (e : Operation) : Bool := e.parts.all keepsOperand

theorem isTextOf_fragment {ctx : RenderContext} {f : Fragment} (home : Alias) {e : Operation}
    (hoperators : e.hasOperators ctx.profile) (hkeeps : e.keepsOperands)
    (h : e.toExpr.fragment ctx = .ok f)
    : IsTextOf home f (e.relocate (ctx.tableOf home)).regroup := by
  induction e generalizing f with
  | column a name =>
    cases h
    apply IsTextOf.of_derives _ (by simp [relocate, regroup, level])
    rw [relocate, regroup, RenderContext.tableOf]
    cases ctx.qualify with
    | true => exact Derives.column
    | false => exact Derives.name
  | literal value =>
    obtain ⟨t, ht, hwords, hparams⟩ := of_fragment_literal h
    apply IsTextOf.of_derives _ (by simp [relocate, regroup, level])
    rw [hwords, hparams]
    exact .literal ht
  | param name =>
    cases h
    exact IsTextOf.of_derives Derives.param (by simp [relocate, regroup, level])
  | binary op l r ihl ihr =>
    simp only [hasOperators, keepsOperands, parts, List.all_cons, List.all_append,
      Bool.and_eq_true] at hoperators hkeeps
    obtain ⟨g, k, hg, hk, hwords, hparams⟩ := of_fragment_binary hoperators.1 h
    have hl := ihl hoperators.2.1 hkeeps.2.1 hg
    have hr := ihr hoperators.2.2 hkeeps.2.2 hk
    apply hl.binary op hr _ hparams
    simpa [needsParens] using hwords
  | unary op e ih =>
    simp only [hasOperators, keepsOperands, parts, List.all_cons,
      Bool.and_eq_true] at hoperators hkeeps
    obtain ⟨g, hg, hwords, hparams⟩ := of_fragment_unary h
    apply (ih hoperators.2 hkeeps.2 hg).unary op _ hparams
    simpa using hwords
  | isNull e negated ih =>
    simp only [hasOperators, keepsOperands, parts, List.all_cons,
      Bool.and_eq_true] at hoperators hkeeps
    obtain ⟨g, hg, hwords, hparams⟩ := of_fragment_isNull h
    apply (ih hoperators.2 hkeeps.2 hg).isNull _ hparams
    simpa using hwords
  | like e pattern escape negated ihe ihpattern =>
    simp only [hasOperators, keepsOperands, parts, List.all_cons, List.all_append,
      Bool.and_eq_true] at hoperators hkeeps
    obtain ⟨g, k, hg, hk, hwords, hparams⟩ := of_fragment_like h
    have he := ihe hoperators.2.1 hkeeps.2.1 hg
    have hpattern := ihpattern hoperators.2.2 hkeeps.2.2 hk
    apply he.like hpattern _ hwords hparams
    simpa [keepsOperand] using hkeeps.1
  | inList e values negated ihe ihvalues =>
    simp only [hasOperators, keepsOperands, parts, partsOfAll_eq, List.all_cons, List.all_append,
      List.all_flatMap, Bool.and_eq_true] at hoperators hkeeps
    obtain ⟨g, gs, hg, hgs, hwords, hparams⟩ := of_fragment_inList h
    have he := ihe hoperators.2.1 hkeeps.2.1 hg
    have hvalues : List.Forall₂ (fun v k => IsTextOf home k v)
        (values.map fun v => (v.relocate (ctx.tableOf home)).regroup) gs := by
      apply List.forall₂_map_left_iff.mpr
      have hall : ∀ v ∈ values, ∀ k, v.toExpr.fragment ctx = .ok k →
          IsTextOf home k (v.relocate (ctx.tableOf home)).regroup := by
        intro v hv k hk
        exact ihvalues v hv (List.all_eq_true.mp hoperators.2.2 v hv)
          (List.all_eq_true.mp hkeeps.2.2 v hv) hk
      exact ((List.forall₂_and_left _ _).mpr ⟨hall, hgs⟩).imp fun v k h => h.1 k h.2
    rw [relocate, regroup, relocateAll_eq, regroupAll_eq, List.map_map]
    apply he.inList hvalues _ hwords hparams
    simpa [keepsOperand] using hkeeps.1

theorem parses_fragment {ctx : RenderContext} {f : Fragment} (home : Alias) {e : Operation}
    (hoperators : e.hasOperators ctx.profile) (hkeeps : e.keepsOperands)
    (h : e.toExpr.fragment ctx = .ok f)
    : Parses home f (e.relocate (ctx.tableOf home)).regroup :=
  .loosen (Level.disjunction_le_rank _) (isTextOf_fragment home hoperators hkeeps h).derives

end Operation

end SqlDialect
