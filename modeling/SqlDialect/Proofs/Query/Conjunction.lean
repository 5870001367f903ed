import SqlDialect.Profile.Default
import SqlDialect.Proofs.Query.Run
import SqlDialect.Proofs.Query.Steps

/-!
This module contains conditions that all have to hold. They are the operands of one AND after the
other, and the condition of a select writes them as such an expression would.
-/

namespace SqlDialect

namespace Expr

def conjunction (e : Expr) (es : List Expr) : Expr := es.foldl (.binary .and) e

def operand (op : BinaryOp) (e : Expr) (ctx : RenderContext) : Compile Fragment :=
  return (← e.fragment ctx).parensIf (e.precedence < op.precedence)

def conjunct (e : Expr) (ctx : RenderContext) : Compile Fragment := e.operand .and ctx

def conjunctSql (e : Expr) (ctx : RenderContext) : Compile Rendered :=
  return (← e.conjunct ctx).render ctx.profile

def isRaw : Expr → Bool
  | .raw _ => true
  | _ => false

theorem precedence_lt_and (e : Expr)
    : decide (e.precedence < BinaryOp.and.precedence) = (e.isOr || e.isRaw) := by
  cases e with
  | binary op => cases op <;> rfl
  | unary op => cases op <;> rfl
  | existsIn scope negated => cases negated <;> rfl
  | _ => rfl

variable {ctx : RenderContext}

theorem fragment_associative {op : BinaryOp} (hop : op.isAssociative) (l r : Expr)
    : (binary op l r).fragment ctx = do
        let f ← l.operand op ctx
        let g ← r.operand op ctx
        return f ++ .ofTokens [.space, op.token, .space] ++ g := by
  have hmod : op ≠ .mod := by
    rintro rfl
    cases hop
  unfold operand
  cases hl : l.fragment ctx with
  | error e => simp [fragment, hl]
  | ok f =>
    cases hr : r.fragment ctx with
    | error e => simp [fragment, hl, hr]
    | ok g => simp [fragment, hl, hr, hop, hmod]

theorem operand_binary (op : BinaryOp) (l r : Expr)
    : (binary op l r).operand op ctx = (binary op l r).fragment ctx := by
  unfold operand
  cases (binary op l r).fragment ctx with
  | error e => rfl
  | ok f => simp [precedence, Fragment.parensIf]

theorem fragment_and (l r : Expr)
    : (binary .and l r).fragment ctx = do
        let f ← l.conjunct ctx
        let g ← r.conjunct ctx
        return f ++ .ofTokens [.space, .keyword .and, .space] ++ g :=
  fragment_associative rfl l r

end Expr

namespace Fragment

theorem separated_singleton (separator : List Token) (f : Fragment)
    : separated separator [f] = f := by
  simp [separated]

theorem separated_cons_append (separator : List Token) (f g : Fragment) (fs : List Fragment)
    : separated separator ((f ++ .ofTokens separator ++ g) :: fs)
        =
      separated separator (f :: g :: fs) := by
  cases fs with
  | nil => simp [separated, ofTokens]
  | cons => simp [separated, ofTokens]

end Fragment

namespace Expr

variable {ctx : RenderContext}

theorem fragment_foldl {join : Expr → Expr → Expr} {written : Expr → Compile Fragment}
    (hjoin : ∀ l r, (join l r).fragment ctx = do
      let f ← written l
      let g ← written r
      return f ++ .ofTokens [.space, .keyword .and, .space] ++ g)
    (hwritten : ∀ l r, written (join l r) = (join l r).fragment ctx) (e e' : Expr) (es : List Expr)
    : ((e' :: es).foldl join e).fragment ctx = do
        let fs ← (e :: e' :: es).mapM written
        return .separated [.space, .keyword .and, .space] fs := by
  induction es generalizing e e' with
  | nil =>
    rw [List.foldl_cons, List.foldl_nil]
    simp only [hjoin, List.mapM_cons, List.mapM_nil, bind_assoc, pure_bind,
      ← Fragment.separated_cons_append, Fragment.separated_singleton]
  | cons e'' es ih =>
    rw [List.foldl_cons, ih]
    simp only [List.mapM_cons, hwritten, hjoin, bind_assoc, pure_bind,
      Fragment.separated_cons_append]

theorem fragment_conjunction (e e' : Expr) (es : List Expr)
    : (e.conjunction (e' :: es)).fragment ctx = do
        let fs ← (e :: e' :: es).mapM (·.conjunct ctx)
        return .separated [.space, .keyword .and, .space] fs :=
  fragment_foldl fragment_and (operand_binary .and) e e' es

theorem sql_conjunction (e e' : Expr) (es : List Expr)
    : (e.conjunction (e' :: es)).sql ctx = do
        let rs ← (e :: e' :: es).mapM (·.conjunctSql ctx)
        return ⟨" AND ".intercalate (rs.map (·.sql)), rs.flatMap (·.params)⟩ := by
  have hsql : (fun e : Expr => e.conjunctSql ctx)
      = fun e => Fragment.render ctx.profile <$> e.conjunct ctx := by
    funext e
    exact bind_pure_comp _ _
  have hand : Token.writeAll ctx.profile [.space, .keyword .and, .space] = " AND " := rfl
  rw [hsql, Compile.mapM_map, sql_eq, fragment_conjunction]
  simp only [bind_assoc, pure_bind, bind_map_left, Fragment.render_separated, hand]

theorem sql_and (l r : Expr)
    : (binary .and l r).sql ctx = do
        let a ← l.conjunctSql ctx
        let b ← r.conjunctSql ctx
        return ⟨a.sql ++ " AND " ++ b.sql, a.params ++ b.params⟩ := by
  change (l.conjunction [r]).sql ctx = _
  rw [sql_conjunction]
  simp

end Expr

/-! ## Conditions of a select -/

namespace Rendered

theorem conjunction?_eq_none_iff {conditions : List Rendered}
    : conjunction? conditions = none ↔ conditions = [] := by
  unfold conjunction?
  cases conditions <;> simp

theorem conjunction?_eq_some {conditions : List Rendered} {c : Rendered}
    (h : conjunction? conditions = some c)
    : c = ⟨" AND ".intercalate (conditions.map (·.sql)), conditions.flatMap (·.params)⟩ := by
  unfold conjunction? at h
  split at h
  · cases h
  · exact (Option.some.inj h).symm

theorem conjunction?_explicit {ctx : RenderContext} {e : Expr} {es : List Expr}
    {rs : List Rendered}
    (h : (e :: es).mapM (fun e' =>
      if 2 ≤ (e :: es).length then e'.conjunctSql ctx else e'.sql ctx) = .ok rs)
    : ∃ c, conjunction? rs = some c ∧ (e.conjunction es).sql ctx = .ok c := by
  cases es with
  | nil =>
    simp only [List.mapM_cons, List.mapM_nil, Compile.bind_eq_ok_iff] at h
    obtain ⟨r, hr, rest, hrest, h⟩ := h
    cases hrest
    cases h
    exact ⟨r, by simp [conjunction?], hr⟩
  | cons e' es =>
    have htwo : 2 ≤ (e :: e' :: es).length := by simp
    simp only [if_pos htwo] at h
    refine ⟨_, if_neg ?_, by rw [Expr.sql_conjunction, h, Compile.ok_bind, Compile.pure_eq_ok]⟩
    have hlength := (Compile.mapM_eq_ok_iff.mp h).length_eq
    cases rs with
    | nil => cases hlength
    | cons => simp

end Rendered

namespace Select

variable {s : Select} {ctx : RenderContext}

theorem conditionList_eq (hraw : ∀ e ∈ s.conditions, ¬ e.isRaw) (others : Nat)
    : s.conditionList ctx others
        =
      s.conditions.mapM
        fun e => if 2 ≤ s.conditions.length + others then e.conjunctSql ctx else e.sql ctx := by
  apply Compile.mapM_congr
  intro e he
  by_cases hcount : 2 ≤ s.conditions.length + others
  · have hneeded : decide (e.precedence < BinaryOp.and.precedence) = e.isOr := by
      rw [Expr.precedence_lt_and, eq_false_of_ne_true (hraw e he), Bool.or_false]
    simp only [if_pos hcount, Expr.conjunctSql, Expr.conjunct, Expr.operand, Expr.sql_eq, hneeded,
      bind_assoc, pure_bind]
    congr 1
    funext f
    have hlt : 1 < s.conditions.length + others := hcount
    cases e.isOr with
    | false => simp [Fragment.parensIf]
    | true => simp [Fragment.parensIf, hlt, Fragment.render_parens, Rendered.parens]
  · have hlt : ¬ 1 < s.conditions.length + others := hcount
    simp only [if_neg hcount, hlt, false_and, if_false]
    exact bind_pure _

theorem exists_conditionList_iff (others : Nat)
    : (∃ rs, s.conditionList ctx others = .ok rs) ↔ ∀ e ∈ s.conditions, ∃ r, e.sql ctx = .ok r := by
  unfold conditionList
  rw [Compile.exists_mapM_eq_ok_iff]
  refine forall₂_congr fun e _ => ?_
  simp [Compile.bind_eq_ok_iff]

end Select

namespace Query

variable {q : Query} {id : ScopeId} {s : Select} {ctx : RenderContext} {hint : Option String}

theorem source_eq (hs : q.select? id = some s) (hraw : ∀ e ∈ s.conditions, ¬ e.isRaw)
    : q.source id ctx hint = do
        let tables ← q.graph.fromClause id q.profile hint
        let implied :=
          tables.conditions ++ (q.profile.paging.condition? s.range (q.shape id s)).toList
        let explicit ← s.conditions.mapM fun e =>
          if 2 ≤ s.conditions.length + implied.length then e.conjunctSql ctx else e.sql ctx
        return ⟨tables.sql, Rendered.conjunction? (explicit ++ implied.map (⟨·, []⟩))⟩ := by
  simp only [source, select_eq_ok_iff.mpr hs, Compile.ok_bind, Select.conditionList_eq hraw]

/--
The condition of a select is made of the conditions that were put on it, those of its joins and that
of its row range, in this order, and there is none only if there are none of them. Unless one of
them is alone, those that were put on the select are written as the operands of AND are, and if
there are no others, the condition is the text of one expression that all of them are operands of.
-/
theorem source_condition (q : Query) (id : ScopeId) (ctx : RenderContext) (hint : Option String)
    (s : Select) (hs : q.select? id = some s) (hraw : ∀ e ∈ s.conditions, ¬ e.isRaw)
    : (∀ l r : Expr, (Expr.binary .and l r).sql ctx = do
        let a ← l.conjunctSql ctx
        let b ← r.conjunctSql ctx
        return ⟨a.sql ++ " AND " ++ b.sql, a.params ++ b.params⟩)
      ∧ ((∃ source, q.source id ctx hint = .ok source)
          ↔ (∃ tables, q.graph.fromClause id q.profile hint = .ok tables)
            ∧ ∀ e ∈ s.conditions, ∃ r, e.sql ctx = .ok r)
      ∧ ∀ source, q.source id ctx hint = .ok source →
          ∃ tables, q.graph.fromClause id q.profile hint = .ok tables
            ∧ let range := q.profile.paging.condition? s.range (q.shape id s)
              let implied := tables.conditions ++ range.toList
              source.tables = tables.sql
                ∧ (source.condition = none
                    ↔ s.conditions = [] ∧ tables.conditions = [] ∧ range = none)
                ∧ (∀ c, source.condition = some c →
                    ∃ explicit : List Rendered,
                      (s.conditions.mapM fun e =>
                        if 2 ≤ s.conditions.length + implied.length then e.conjunctSql ctx
                        else e.sql ctx) = .ok explicit
                      ∧ c.sql = " AND ".intercalate (explicit.map (·.sql) ++ implied)
                      ∧ c.params = explicit.flatMap (·.params))
                ∧ ∀ e es, s.conditions = e :: es → implied = [] →
                    ∃ c, source.condition = some c ∧ (e.conjunction es).sql ctx = .ok c := by
  refine ⟨Expr.sql_and, ?_, ?_⟩
  · simp only [source, select_eq_ok_iff.mpr hs, Compile.ok_bind, Compile.bind_eq_ok_iff]
    constructor
    · rintro ⟨_, tables, htables, explicit, hexplicit, -⟩
      exact ⟨⟨tables, htables⟩, (Select.exists_conditionList_iff _).mp ⟨explicit, hexplicit⟩⟩
    · rintro ⟨⟨tables, htables⟩, hexprs⟩
      obtain ⟨explicit, hexplicit⟩ := (Select.exists_conditionList_iff _).mpr hexprs
      exact ⟨_, tables, htables, explicit, hexplicit, rfl⟩
  · intro source h
    rw [source_eq hs hraw] at h
    obtain ⟨tables, htables, h⟩ := Compile.bind_eq_ok_iff.mp h
    obtain ⟨explicit, hexplicit, h⟩ := Compile.bind_eq_ok_iff.mp h
    cases h
    have hlength : s.conditions.length = explicit.length :=
      (Compile.mapM_eq_ok_iff.mp hexplicit).length_eq
    refine ⟨tables, htables, rfl, ?_, ?_, ?_⟩
    · dsimp only
      rw [Rendered.conjunction?_eq_none_iff, ← List.length_eq_zero_iff,
        ← List.length_eq_zero_iff (l := s.conditions)]
      simp [hlength]
    · intro c hc
      obtain rfl := Rendered.conjunction?_eq_some hc
      refine ⟨explicit, hexplicit, ?_, ?_⟩
      · simp [Function.comp_def]
      · simp
    · intro e es hes himplied
      simp only [hes, himplied, List.length_nil, Nat.add_zero] at hexplicit
      dsimp only
      rw [himplied, List.map_nil, List.append_nil]
      exact Rendered.conjunction?_explicit hexplicit

-- A join and a row range add a condition each. Without them, the conditions are those of one
-- expression.
theorem source_condition_joined
    : let key : ForeignKey :=
        { columns := ["C_ID"], referencedTable := "C", primaryKeyColumns := ["ID"] }
      let rel : Relation :=
        { name := "c", source := { name := "O" }, target := { name := "C" }, foreignKey := key }
      let equal (name : String) : Expr := .binary .eq (.column ⟨0⟩ "ID") (.param name)
      let either : Expr := .binary .or (equal "a") (.isNull (.column ⟨0⟩ "ID") false)
      let conditions : List QueryCall :=
        [.addCondition .root either, .addCondition .root (equal "b")]
      let q := (new Vendor.oracle.profile).afterAll
        (.join .root .root rel :: .setRange .root { stop := some 10 } :: conditions)
      let q' := (new Vendor.oracle.profile).afterAll
        (.fromTable .root { name := "O" } :: conditions)
      let all : Rendered :=
        ⟨"(t0.ID = ? OR t0.ID IS NULL) AND t0.ID = ? AND t0.C_ID = t1.ID AND ROWNUM <= 10",
          ["a", "b"]⟩
      let explicit : Rendered := ⟨"(t0.ID = ? OR t0.ID IS NULL) AND t0.ID = ?", ["a", "b"]⟩
      (∀ e ∈ [either, equal "b"], ¬ e.isRaw)
        ∧ (∃ source operands, q.source .root q.context none = .ok source
            ∧ source.condition = some all
            ∧ [either, equal "b"].mapM (·.conjunctSql q.context) = .ok operands
            ∧ all.sql = " AND ".intercalate
                (operands.map (·.sql) ++ ["t0.C_ID = t1.ID", "ROWNUM <= 10"]))
        ∧ ∃ source, q'.source .root q'.context none = .ok source
            ∧ source.condition = some explicit
            ∧ (either.conjunction [equal "b"]).sql q'.context = .ok explicit := by
  intro key rel equal either conditions q q' all explicit
  have hraw : ∀ e ∈ [either, equal "b"], ¬ e.isRaw := by decide
  refine ⟨hraw, ?_, ?_⟩
  · obtain ⟨s, hs, hconditions, hrange⟩ : ∃ s, q.select? .root = some s
        ∧ s.conditions = [either, equal "b"]
        ∧ q.profile.paging.condition? s.range (q.shape .root s) = some "ROWNUM <= 10" :=
      ⟨_, rfl, rfl, by decide +kernel⟩
    obtain ⟨source, hsource, hcondition⟩ : ∃ source, q.source .root q.context none = .ok source
        ∧ source.condition = some all := Compile.exists_of_toOption (by decide +kernel)
    rw [← hconditions] at hraw
    obtain ⟨-, -, hwhere⟩ := source_condition q .root q.context none s hs hraw
    obtain ⟨tables, htables, -, -, hexplicit, -⟩ := hwhere source hsource
    obtain ⟨tables', htables', hjoin⟩ : ∃ tables,
        q.graph.fromClause .root q.profile none = .ok tables
        ∧ tables.conditions = ["t0.C_ID = t1.ID"] := Compile.exists_of_toOption (by decide +kernel)
    obtain rfl := Except.ok.inj (htables.symm.trans htables')
    obtain ⟨operands, hoperands, hsql, -⟩ := hexplicit all hcondition
    rw [hconditions, hjoin, hrange] at hoperands
    rw [hjoin, hrange] at hsql
    exact ⟨source, operands, hsource, hcondition, hoperands, hsql⟩
  · obtain ⟨source, hsource, hcondition⟩ : ∃ source, q'.source .root q'.context none = .ok source
        ∧ source.condition = some explicit := Compile.exists_of_toOption (by decide +kernel)
    obtain ⟨-, -, hwhere⟩ := source_condition q' .root q'.context none _ rfl hraw
    obtain ⟨tables, htables, -, -, -, halone⟩ := hwhere source hsource
    obtain ⟨tables', htables', hjoin⟩ : ∃ tables,
        q'.graph.fromClause .root q'.profile none = .ok tables
        ∧ tables.conditions = [] := Compile.exists_of_toOption (by decide +kernel)
    obtain rfl := Except.ok.inj (htables.symm.trans htables')
    obtain ⟨c, hc, hsql⟩ := halone either [equal "b"] rfl (by rw [hjoin]; rfl)
    obtain rfl := Option.some.inj (hc.symm.trans hcondition)
    exact ⟨source, hsource, hcondition, hsql⟩

end Query

end SqlDialect
