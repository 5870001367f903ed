import SqlDialect.Profile.Default
import SqlDialect.Proofs.Expr.Conditions
import SqlDialect.Proofs.Expr.GroupConditions
import SqlDialect.Proofs.Expr.Length
import SqlDialect.Proofs.Query.Conjunction

/-!
This module contains conditions on groups of rows. They are joined by AND as they are, so an OR
among them is torn apart: its last operand goes with the condition that follows, and its first one
with the condition before it.
-/

namespace SqlDialect

namespace Expr

/-! ## Conditions joined without parentheses -/

def andFirst (l : Expr) : Expr → Expr
  | .binary .or a b => .binary .or (l.andFirst a) b
  | r => .binary .and l r

def bareAnd (l r : Expr) : Expr :=
  match l with
  | .binary .or a b => .binary .or a (b.bareAnd r)
  | l => l.andFirst r

def bareConjunction (e : Expr) (es : List Expr) : Expr := es.foldl bareAnd e

variable {ctx : RenderContext} {l r e : Expr}

theorem precedence_lt_or (e : Expr)
    : decide (e.precedence < BinaryOp.or.precedence) = e.isRaw := by
  cases e with
  | binary op => cases op <;> rfl
  | unary op => cases op <;> rfl
  | existsIn scope negated => cases negated <;> rfl
  | _ => rfl

theorem operand_or_of_not_isRaw (h : e.isRaw = false) : e.operand .or ctx = e.fragment ctx := by
  rw [operand, precedence_lt_or, h]
  cases e.fragment ctx <;> rfl

theorem operand_and_of_not_isOr (h : e.isOr = false) : e.operand .and ctx = e.operand .or ctx := by
  rw [operand, operand, precedence_lt_and, precedence_lt_or, h, Bool.false_or]

theorem isOr_eq_false (h : ∀ a b, e = .binary .or a b → False) : e.isOr = false := by
  unfold isOr
  split
  · exact (h _ _ rfl).elim
  · rfl

theorem isRaw_andFirst (l r : Expr) : (l.andFirst r).isRaw = false := by
  unfold andFirst
  split <;> rfl

theorem isRaw_bareAnd (l r : Expr) : (l.bareAnd r).isRaw = false := by
  unfold bareAnd
  split
  · rfl
  · exact isRaw_andFirst _ _

theorem fragment_andFirst (hl : l.isOr = false) (r : Expr)
    : (l.andFirst r).fragment ctx = do
        let f ← l.operand .or ctx
        let g ← r.operand .or ctx
        return f ++ .ofTokens [.space, .keyword .and, .space] ++ g := by
  fun_induction andFirst l r with
  | case1 a b ih =>
    rw [fragment_associative rfl, operand_or_of_not_isRaw (isRaw_andFirst l a), ih, operand_binary,
      fragment_associative rfl]
    simp [Fragment.append_assoc]
  | case2 r hr =>
    rw [fragment_associative rfl, operand_and_of_not_isOr hl,
      operand_and_of_not_isOr (isOr_eq_false hr)]
    rfl

theorem fragment_bareAnd (l r : Expr)
    : (l.bareAnd r).fragment ctx = do
        let f ← l.operand .or ctx
        let g ← r.operand .or ctx
        return f ++ .ofTokens [.space, .keyword .and, .space] ++ g := by
  fun_induction bareAnd l r with
  | case1 a b ih =>
    rw [fragment_associative rfl, operand_or_of_not_isRaw (isRaw_bareAnd b r), ih, operand_binary,
      fragment_associative rfl]
    simp [Fragment.append_assoc]
  | case2 l hl => exact fragment_andFirst (isOr_eq_false hl) r

theorem fragment_bareConjunction {e' : Expr} {es : List Expr}
    (h : ∀ d ∈ e :: e' :: es, d.isRaw = false)
    : (e.bareConjunction (e' :: es)).fragment ctx = do
        let fs ← (e :: e' :: es).mapM (·.fragment ctx)
        return .separated [.space, .keyword .and, .space] fs := by
  rw [bareConjunction, fragment_foldl fragment_bareAnd fun l r =>
    operand_or_of_not_isRaw (isRaw_bareAnd l r)]
  rw [Compile.mapM_congr fun d hd => operand_or_of_not_isRaw (h d hd)]

/-! ## Truth -/

def truth (i : Expr → Truth) : Expr → Truth
  | .binary .and a b => (a.truth i).and (b.truth i)
  | .binary .or a b => (a.truth i).or (b.truth i)
  | .unary .not a => (a.truth i).not
  | e => i e

end Expr

theorem Truth.and_eq_true_iff {a b : Truth}
    : Truth.and a b = some true ↔ a = some true ∧ b = some true := by
  obtain _ | _ | _ := a <;> obtain _ | _ | _ := b <;> simp [Truth.and]

theorem Truth.or_eq_true_iff {a b : Truth}
    : Truth.or a b = some true ↔ a = some true ∨ b = some true := by
  obtain _ | _ | _ := a <;> obtain _ | _ | _ := b <;> simp [Truth.or]

namespace Expr

variable {ctx : RenderContext} {l r e : Expr} {i : Expr → Truth}

theorem truth_andFirst (hl : l.truth i = some true) (hr : r.truth i = some true)
    : (l.andFirst r).truth i = some true := by
  fun_induction andFirst l r with
  | case1 a b ih =>
    rw [truth, Truth.or_eq_true_iff] at hr ⊢
    exact hr.imp_left ih
  | case2 r =>
    rw [truth, Truth.and_eq_true_iff]
    exact ⟨hl, hr⟩

theorem truth_bareAnd (hl : l.truth i = some true) (hr : r.truth i = some true)
    : (l.bareAnd r).truth i = some true := by
  fun_induction bareAnd l r with
  | case1 a b ih =>
    rw [truth, Truth.or_eq_true_iff] at hl ⊢
    exact hl.imp_right ih
  | case2 l => exact truth_andFirst hl hr

theorem truth_conjunction_iff {es : List Expr}
    : (e.conjunction es).truth i = some true ↔ ∀ d ∈ e :: es, d.truth i = some true := by
  unfold conjunction
  induction es generalizing e with
  | nil => simp
  | cons e' es ih =>
    rw [List.foldl_cons, ih]
    simp [truth, Truth.and_eq_true_iff, and_assoc]

theorem truth_bareConjunction {es : List Expr} (h : ∀ d ∈ e :: es, d.truth i = some true)
    : (e.bareConjunction es).truth i = some true := by
  obtain ⟨he, hes⟩ := List.forall_mem_cons.mp h
  exact List.foldlRecOn (motive := (·.truth i = some true)) es bareAnd he
    fun _ hl d hd => truth_bareAnd hl (hes d hd)

theorem isGroupCondition_binary_iff {op : BinaryOp}
    (hop : op.precedence ≤ BinaryOp.eq.precedence)
    : (binary op l r).isGroupCondition ↔ l.isGroupCondition ∧ r.isGroupCondition := by
  simp [isGroupCondition, parts, isGroupConditionPart, hop]

theorem isGroupCondition_andFirst (hl : l.isGroupCondition) (hr : r.isGroupCondition)
    : (l.andFirst r).isGroupCondition := by
  fun_induction andFirst l r with
  | case1 a b ih =>
    rw [isGroupCondition_binary_iff (by decide)] at hr ⊢
    exact hr.imp_left ih
  | case2 r =>
    rw [isGroupCondition_binary_iff (by decide)]
    exact ⟨hl, hr⟩

theorem isGroupCondition_bareAnd (hl : l.isGroupCondition) (hr : r.isGroupCondition)
    : (l.bareAnd r).isGroupCondition := by
  fun_induction bareAnd l r with
  | case1 a b ih =>
    rw [isGroupCondition_binary_iff (by decide)] at hl ⊢
    exact hl.imp_right ih
  | case2 l => exact isGroupCondition_andFirst hl hr

theorem isOr_andFirst (l r : Expr) : (l.andFirst r).isOr = r.isOr := by
  fun_cases andFirst l r with
  | case1 a b => rfl
  | case2 r hr => exact (isOr_eq_false hr).symm

theorem isOr_bareAnd (l r : Expr) : (l.bareAnd r).isOr = (l.isOr || r.isOr) := by
  fun_cases bareAnd l r with
  | case1 a b => rfl
  | case2 l hl => rw [isOr_andFirst, isOr_eq_false hl, Bool.false_or]

theorem isOr_bareConjunction (e : Expr) (es : List Expr)
    : (e.bareConjunction es).isOr = (e :: es).any (·.isOr) := by
  unfold bareConjunction
  induction es generalizing e with
  | nil => simp
  | cons e' es ih => simp [ih, isOr_bareAnd, Bool.or_assoc]

theorem isGroupCondition_bareConjunction {es : List Expr} (h : ∀ d ∈ e :: es, d.isGroupCondition)
    : (e.bareConjunction es).isGroupCondition := by
  obtain ⟨he, hes⟩ := List.forall_mem_cons.mp h
  exact List.foldlRecOn (motive := (·.isGroupCondition)) es bareAnd he
    fun _ hl d hd => isGroupCondition_bareAnd hl (hes d hd)

theorem isGroupCondition_conjunction {es : List Expr} (h : ∀ d ∈ e :: es, d.isGroupCondition)
    : (e.conjunction es).isGroupCondition := by
  obtain ⟨he, hes⟩ := List.forall_mem_cons.mp h
  exact List.foldlRecOn (motive := (·.isGroupCondition)) es (binary .and) he
    fun _ hl d hd => (isGroupCondition_binary_iff (by decide)).mpr ⟨hl, hes d hd⟩

theorem isOr_conjunction_cons (e e' : Expr) (es : List Expr)
    : (e.conjunction (e' :: es)).isOr = false := by
  unfold conjunction
  induction es generalizing e e' with
  | nil => rfl
  | cons e'' es ih => exact ih (.binary .and e e') e''

theorem isRaw_of_isGroupCondition {e : Expr} (h : e.isGroupCondition) : e.isRaw = false := by
  cases e with
  | raw => simp [isGroupCondition, parts, isGroupConditionPart] at h
  | _ => rfl

end Expr

/-! ## Parentheses that are not written -/

theorem Fragment.separated_cons_cons (separator : List Token) (f g : Fragment) (fs : List Fragment)
    : separated separator (f :: g :: fs)
        =
      f ++ .ofTokens separator ++ separated separator (g :: fs) := by
  apply congrArg₂ Fragment.mk
  · exact List.intercalate_cons_cons
  · simp [ofTokens, separated]

namespace Expr

variable {ctx : RenderContext}

def enclose : List Expr → List Fragment → List Fragment :=
  List.zipWith fun e f => f.parensIf e.isOr

theorem mapM_conjunct {es : List Expr} (h : ∀ e ∈ es, e.isRaw = false)
    : es.mapM (·.conjunct ctx) = do
        let fs ← es.mapM (·.fragment ctx)
        return enclose es fs := by
  induction es with
  | nil => rfl
  | cons e es ih =>
    obtain ⟨he, hes⟩ := List.forall_mem_cons.mp h
    have hneeded : decide (e.precedence < BinaryOp.and.precedence) = e.isOr := by
      rw [precedence_lt_and, he, Bool.or_false]
    rw [List.mapM_cons, ih hes, List.mapM_cons, conjunct, operand, hneeded]
    simp [enclose]

variable {R : Expr → Fragment → Prop} {es : List Expr} {fs : List Fragment}

theorem params_enclose (h : List.Forall₂ R es fs)
    : (enclose es fs).flatMap (·.params) = fs.flatMap (·.params) := by
  unfold enclose
  induction h with
  | nil => rfl
  | cons _ _ ih =>
    rw [List.zipWith_cons_cons, List.flatMap_cons, List.flatMap_cons, Fragment.params_parensIf, ih]

theorem size_enclose (h : List.Forall₂ R es fs) (p : Profile) (separator : List Token)
    : (Fragment.separated separator (enclose es fs)).size p
        =
      (Fragment.separated separator fs).size p + 2 * es.countP (·.isOr) := by
  have hone : ∀ (e : Expr) (f : Fragment),
      (f.parensIf e.isOr).size p = f.size p + 2 * if e.isOr then 1 else 0 := by
    intro e f
    cases e.isOr <;> simp [Fragment.parensIf]
  induction h with
  | nil => rfl
  | @cons e f es fs _ hrest ih =>
    rw [List.countP_cons]
    cases hrest with
    | nil =>
      change (Fragment.separated separator [f.parensIf e.isOr]).size p = _
      rw [Fragment.separated_singleton, Fragment.separated_singleton, hone]
      simp
    | @cons e' f' es fs _ _ =>
      change (Fragment.separated separator
        (f.parensIf e.isOr :: f'.parensIf e'.isOr :: enclose es fs)).size p = _
      rw [Fragment.separated_cons_cons, Fragment.separated_cons_cons, Fragment.size_append,
        Fragment.size_append, Fragment.size_append, Fragment.size_append, hone]
      change (Fragment.separated separator (f'.parensIf e'.isOr :: enclose es fs)).size p = _ at ih
      omega

theorem enclose_eq (h : List.Forall₂ R es fs) (hnone : ∀ e ∈ es, ¬ e.isOr)
    : enclose es fs = fs := by
  unfold enclose
  induction h with
  | nil => rfl
  | cons _ _ ih =>
    obtain ⟨he, hes⟩ := List.forall_mem_cons.mp hnone
    rw [List.zipWith_cons_cons, ih hes, eq_false_of_ne_true he]
    rfl

theorem render_enclose_iff (h : List.Forall₂ R es fs) (p : Profile) (separator : List Token)
    : (Fragment.separated separator fs).render p
          = (Fragment.separated separator (enclose es fs)).render p
        ↔
      ∀ e ∈ es, ¬ e.isOr := by
  constructor
  · intro heq
    have hsize := size_enclose h p separator
    rw [Fragment.size, Fragment.size, ← heq] at hsize
    have hcount : es.countP (·.isOr) = 0 := by omega
    exact List.countP_eq_zero.mp hcount
  · intro hnone
    rw [enclose_eq h hnone]

variable {e e' : Expr} {f : Fragment}

theorem fragment_conjunction_eq (hraw : ∀ d ∈ e :: e' :: es, d.isRaw = false)
    : (e.conjunction (e' :: es)).fragment ctx = do
        let fs ← (e :: e' :: es).mapM (·.fragment ctx)
        return .separated [.space, .keyword .and, .space] (enclose (e :: e' :: es) fs) := by
  rw [fragment_conjunction, mapM_conjunct hraw]
  simp

theorem isOr_of_reads (hgroup : ∀ d ∈ e :: e' :: es, d.isGroupCondition)
    (hf : (e.bareConjunction (e' :: es)).fragment ctx = .ok f) {d : Expr}
    (hreads : Reads ctx false f.tokens d) (hor : ∃ c ∈ e :: e' :: es, c.isOr) : d.isOr := by
  have hmem : .keyword .or ∈ Token.outermost f.tokens := by
    rw [(showsOr_fragment _ (isGroupCondition_bareConjunction hgroup) hf).or_mem_iff,
      isOr_bareConjunction]
    exact List.any_eq_true.mpr hor
  exact (hreads.isOr.2 hmem).2

theorem reads_conjunction_iff (hgroup : ∀ d ∈ e :: e' :: es, d.isGroupCondition)
    (hf : (e.bareConjunction (e' :: es)).fragment ctx = .ok f)
    : Reads ctx false f.tokens (e.conjunction (e' :: es)) ↔ ∀ d ∈ e :: e' :: es, ¬ d.isOr := by
  have hraw := fun d hd => isRaw_of_isGroupCondition (hgroup d hd)
  constructor
  · intro hreads d hd hor
    have hwhole := isOr_of_reads hgroup hf hreads ⟨d, hd, hor⟩
    rw [isOr_conjunction_cons] at hwhole
    cases hwhole
  · intro hnone
    apply reads_fragment _ (isGroupCondition_conjunction hgroup)
    rw [← hf, fragment_conjunction_eq hraw, fragment_bareConjunction hraw]
    apply Compile.bind_congr_of_ok
    intro fs hfs
    rw [enclose_eq (Compile.mapM_eq_ok_iff.mp hfs) hnone]

end Expr

/-! ## Conditions on groups -/

namespace Select

variable {s : Select} {ctx : RenderContext} {e e' : Expr} {es : List Expr}

theorem havingClause_eq (hhaving : s.having = e :: e' :: es)
    (hraw : ∀ d ∈ s.having, d.isRaw = false)
    : s.havingClause ctx = do
        let f ← (e.bareConjunction (e' :: es)).fragment ctx
        return .ofTokens [.space, .keyword .having, .space] ++ f := by
  rw [hhaving] at hraw
  rw [Expr.fragment_bareConjunction hraw]
  simp [havingClause, hhaving]

end Select

namespace Query

theorem exists_body_eq {q : Query} {id : ScopeId} {s : Select} (hs : q.select? id = some s)
    {ctx : RenderContext} {hint : Option String} {ordered : Bool} {clause body : Fragment}
    (hclause : s.havingClause ctx = .ok clause) (h : q.body id ctx hint ordered = .ok body)
    : ∃ before after, body = before ++ clause ++ after := by
  rw [body_eq (select_eq_ok_iff.mpr hs), hclause] at h
  obtain ⟨source, _, h⟩ := Compile.bind_eq_ok_iff.mp h
  obtain ⟨groupBy, _, h⟩ := Compile.bind_eq_ok_iff.mp h
  rw [Compile.ok_bind] at h
  obtain ⟨orderBy, _, h⟩ := Compile.bind_eq_ok_iff.mp h
  cases h
  exact ⟨_, orderBy, rfl⟩

/--
Several conditions on groups are written with AND between them and no parentheses. The text is that
of their conjunction, and is read as it, exactly if none of them is an OR. If one is, the text is
read as a disjunction. That is true of every group of which all conditions are true, but may be true
of others.
-/
theorem having_condition (q : Query) (id : ScopeId) (ctx : RenderContext) (s : Select)
    (hs : q.select? id = some s) (e e' : Expr) (es : List Expr)
    (hhaving : s.having = e :: e' :: es) (hgroup : ∀ d ∈ s.having, d.isGroupCondition)
    : let bare := e.bareConjunction (e' :: es)
      let whole := e.conjunction (e' :: es)
      (∀ err, s.havingClause ctx = .error err ↔ whole.fragment ctx = .error err)
        ∧ (∀ f, bare.fragment ctx = .ok f →
            s.havingClause ctx = .ok (.ofTokens [.space, .keyword .having, .space] ++ f)
            ∧ (∀ hint ordered body, q.body id ctx hint ordered = .ok body →
                ∃ before after, body
                  = before ++ (.ofTokens [.space, .keyword .having, .space] ++ f) ++ after)
            ∧ Expr.Reads ctx false f.tokens bare
            ∧ (∀ d, Expr.Reads ctx false f.tokens d → (∃ c ∈ s.having, c.isOr) → d.isOr)
            ∧ (Expr.Reads ctx false f.tokens whole ↔ ∀ d ∈ s.having, ¬ d.isOr)
            ∧ ∃ g, whole.fragment ctx = .ok g
                ∧ g.params = f.params
                ∧ (f.render ctx.profile = g.render ctx.profile ↔ ∀ d ∈ s.having, ¬ d.isOr))
        ∧ ∀ i, whole.truth i = some true → bare.truth i = some true := by
  intro bare whole
  have hraw : ∀ d ∈ s.having, d.isRaw = false :=
    fun d hd => Expr.isRaw_of_isGroupCondition (hgroup d hd)
  have hclause : s.havingClause ctx = do
      let f ← bare.fragment ctx
      return .ofTokens [.space, .keyword .having, .space] ++ f :=
    Select.havingClause_eq hhaving hraw
  rw [hhaving] at hgroup hraw ⊢
  have hbare : bare.fragment ctx = _ := Expr.fragment_bareConjunction hraw
  have hwhole : whole.fragment ctx = _ := Expr.fragment_conjunction_eq hraw
  refine ⟨fun err => ?_, fun f hf => ?_, fun i h => ?_⟩
  · rw [hclause, hbare, hwhole]
    cases (e :: e' :: es).mapM (·.fragment ctx) <;> simp
  · rw [hf, Compile.ok_bind, Compile.pure_eq_ok] at hclause
    have hreads : Expr.Reads ctx false f.tokens bare :=
      bare.reads_fragment (Expr.isGroupCondition_bareConjunction hgroup) hf
    refine ⟨hclause, fun hint ordered body hbody => exists_body_eq hs hclause hbody, hreads,
      fun d hd hor => Expr.isOr_of_reads hgroup hf hd hor, Expr.reads_conjunction_iff hgroup hf, ?_⟩
    rw [hbare] at hf
    obtain ⟨fs, hfs, hf⟩ := Compile.bind_eq_ok_iff.mp hf
    cases hf
    rw [hfs, Compile.ok_bind, Compile.pure_eq_ok] at hwhole
    have hwritten := Compile.mapM_eq_ok_iff.mp hfs
    exact ⟨_, hwhole, Expr.params_enclose hwritten, Expr.render_enclose_iff hwritten _ _⟩
  · exact Expr.truth_bareConjunction (Expr.truth_conjunction_iff.mp h)

def groupedOrders : List QueryCall :=
  let key : Expr := .column ⟨0⟩ "id"
  let several : Expr := .binary .gt (.aggregateRows .count false) (.literal (.int 1))
  let first : Expr := .binary .eq (.aggregate .min key false) (.literal (.int 2))
  let small : Expr := .binary .lt (.aggregate .max key false) (.literal (.int 3))
  [.fromTable .root { name := "ORDERS" }, .addItem .root { expr := key }, .addGrouping .root key,
    .addHaving .root (.binary .or several first), .addHaving .root small]

-- The text is that of a disjunction, and no text of the conjunction.
theorem having_condition_either
    : let q := (new Vendor.generic.profile).afterAll groupedOrders
      ∃ s e e' f, q.select? .root = some s ∧ s.having = [e, e']
        ∧ s.havingClause q.context = .ok (.ofTokens [.space, .keyword .having, .space] ++ f)
        ∧ (f.render q.profile).sql = "COUNT(*) > 1 OR MIN(t0.id) = 2 AND MAX(t0.id) < 3"
        ∧ Expr.Reads q.context false f.tokens (e.bareConjunction [e'])
        ∧ ¬ Expr.Reads q.context false f.tokens (e.conjunction [e']) := by
  intro q
  obtain ⟨s, e, e', hs, hhaving, hgroup, hor, hsql⟩ : ∃ s e e', q.select? .root = some s
      ∧ s.having = [e, e'] ∧ (∀ d ∈ s.having, d.isGroupCondition) ∧ e.isOr
      ∧ ((e.bareConjunction [e']).fragment q.context).toOption.map
          (fun f => (f.render q.profile).sql)
        = some "COUNT(*) > 1 OR MIN(t0.id) = 2 AND MAX(t0.id) < 3" :=
    ⟨_, _, _, rfl, rfl, by decide +kernel, rfl, by decide +kernel⟩
  obtain ⟨f, hf, hsql⟩ := Compile.exists_of_toOption hsql
  obtain ⟨_, hwritten, _⟩ := having_condition q .root q.context s hs e e' [] hhaving hgroup
  obtain ⟨hclause, _, hreads, _, hwhole, _⟩ := hwritten f hf
  refine ⟨s, e, e', f, hs, hhaving, hclause, hsql, hreads, fun h => ?_⟩
  exact hwhole.mp h e (by simp [hhaving]) hor

def severalRows : Expr → Truth
  | .binary .gt _ _ => some true
  | _ => some false

-- The conditions are not all true of a group that the text is true of.
theorem having_condition_torn
    : let q := (new Vendor.generic.profile).afterAll groupedOrders
      ∃ s e e', q.select? .root = some s ∧ s.having = [e, e']
        ∧ (q.render .unlocked).toOption.map (·.sql)
          = some ("SELECT t0.id FROM ORDERS t0 GROUP BY t0.id"
            ++ " HAVING COUNT(*) > 1 OR MIN(t0.id) = 2 AND MAX(t0.id) < 3")
        ∧ (e.conjunction [e']).sql q.context
          = .ok ⟨"(COUNT(*) > 1 OR MIN(t0.id) = 2) AND MAX(t0.id) < 3", []⟩
        ∧ (e.bareConjunction [e']).truth severalRows = some true
        ∧ (e.conjunction [e']).truth severalRows = some false :=
  ⟨_, _, _, rfl, rfl, by decide +kernel, by decide +kernel, rfl, rfl⟩

end Query

end SqlDialect
