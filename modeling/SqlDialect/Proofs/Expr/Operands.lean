import SqlDialect.Proofs.Expr.Conditions
import SqlDialect.Proofs.Expr.Parentheses

/-!
This module contains the way back from the text of a condition with LIKE and IN. Their operands have
no parentheses. The grammar gives the tree of the condition again, up to the grouping of
connectives, exactly if these operands hold together as tightly as a comparison, and the patterns
more tightly.
-/

namespace SqlDialect

namespace Operation

/-! ## Places of operands -/

section Regrouping

variable {d e : Operation} (h : Regroups BinaryOp.connects d e)

include h

theorem Regroups.level_eq : d.level = e.level := by
  induction h with
  | refl => rfl
  | symm _ ih => exact ih.symm
  | trans _ _ ih ih' => exact ih.trans ih'
  | assoc h a b c => exact congrArg BinaryOp.level (BinaryOp.eq_of_connects h)
  | binary | isNull | like | inList | listValue => rfl
  | unary op => cases op <;> rfl

theorem Regroups.weight_eq : d.weight = e.weight := by
  induction h with
  | refl => rfl
  | symm _ ih => exact ih.symm
  | trans _ _ ih ih' => exact ih.trans ih'
  | assoc h a b c => simp only [weight, Nat.add_assoc]
  | binary op _ _ ihl ihr => simp only [weight, ihl, ihr]
  | unary op _ ih => simp only [weight, ih]
  | isNull negated _ ih => simp only [weight, ih]
  | like escape negated _ _ ih ihpattern => simp only [weight, ih, ihpattern]
  | inList values negated _ ih => simp only [weight, ih]
  | listValue e before after negated _ ih =>
    simp only [weight, weightOfAll_append, weightOfAll, ih]

theorem Regroups.looseAt_eq (level : Level) (p : Nat) : d.looseAt level p = e.looseAt level p := by
  rw [looseAt, looseAt, h.level_eq, h.weight_eq]

theorem Regroups.exposed_eq (p : Nat) : d.exposed p = e.exposed p := by
  induction h generalizing p with
  | refl => rfl
  | symm _ ih => exact (ih p).symm
  | trans _ _ ih ih' => exact (ih p).trans (ih' p)
  | assoc h a b c => simp [exposed, weight, Nat.add_assoc]
  | binary op hl _ ihl ihr => simp only [exposed, ihl, ihr, hl.weight_eq]
  | unary op _ ih => simp only [exposed, ih]
  | isNull negated _ ih => simp only [exposed, ih]
  | like escape negated h hpattern ih ihpattern =>
    simp only [exposed, ih, ihpattern, h.weight_eq, h.looseAt_eq, hpattern.looseAt_eq]
  | inList values negated h ih => simp only [exposed, ih, h.weight_eq, h.looseAt_eq]
  | listValue e before after negated h ih =>
    simp only [exposed, exposedOfAll_append, exposedOfAll, ih, h.weight_eq]

end Regrouping

theorem weight_relocate (f : Alias → Alias) (e : Operation) : (e.relocate f).weight = e.weight := by
  induction e with
  | column | literal | param => rfl
  | binary op l r ihl ihr => simp only [relocate, weight, ihl, ihr]
  | unary op e ih => simp only [relocate, weight, ih]
  | isNull e negated ih => simp only [relocate, weight, ih]
  | like e pattern escape negated ih ihpattern => simp only [relocate, weight, ih, ihpattern]
  | inList e values negated ih ihvalues =>
    have hvalues : weightOfAll (relocateAll f values) = weightOfAll values := by
      clear ih
      induction values with
      | nil => rfl
      | cons v values ih =>
        obtain ⟨hv, hvalues⟩ := List.forall_mem_cons.mp ihvalues
        rw [relocateAll, weightOfAll, weightOfAll, hv, ih hvalues]
    simp only [relocate, weight, ih, hvalues]

theorem looseAt_relocate (f : Alias → Alias) (level : Level) (p : Nat) (e : Operation)
    : (e.relocate f).looseAt level p = e.looseAt level p := by
  rw [looseAt, looseAt, level_relocate, weight_relocate]

theorem exposed_relocate (f : Alias → Alias) (e : Operation) (p : Nat)
    : (e.relocate f).exposed p = e.exposed p := by
  induction e generalizing p with
  | column | literal | param => rfl
  | binary op l r ihl ihr => simp only [relocate, exposed, ihl, ihr, weight_relocate]
  | unary op e ih => simp only [relocate, exposed, ih]
  | isNull e negated ih => simp only [relocate, exposed, ih]
  | like e pattern escape negated ih ihpattern =>
    simp only [relocate, exposed, ih, ihpattern, weight_relocate, looseAt_relocate]
  | inList e values negated ih ihvalues =>
    have hvalues : ∀ q, exposedOfAll q (relocateAll f values) = exposedOfAll q values := by
      clear ih
      induction values with
      | nil => exact fun _ => rfl
      | cons v values ih =>
        obtain ⟨hv, hvalues⟩ := List.forall_mem_cons.mp ihvalues
        intro q
        rw [relocateAll, exposedOfAll, exposedOfAll, hv, ih hvalues, weight_relocate]
    simp only [relocate, exposed, ih, hvalues, weight_relocate, looseAt_relocate]

/-! ## Texts -/

theorem keepsOperands_of_regroups {ctx : RenderContext} {home : Alias} {f : Fragment}
    {d e : Operation} (hoperators : e.hasOperators ctx.profile)
    (hf : e.toExpr.fragment ctx = .ok f) (hd : Parses home f d)
    (hregroups : Regroups BinaryOp.connects d (e.relocate (ctx.tableOf home)))
    : e.keepsOperands := by
  by_contra hkeeps
  obtain ⟨s, hs, hspans⟩ := (bare_fragment hoperators hf).missing hkeeps 0
  have hcovers : Covers f.words d.weight (d.exposed ·) := hd.encloses.inner
  apply hspans
  apply hcovers.subset 0
  rwa [hregroups.exposed_eq, exposed_relocate]

/--
The text of a condition has a tree in the grammar that is its own, up to the grouping of AND and OR,
exactly if the operands of LIKE and IN hold together. Then it has no other tree. Only a literal that
is not finite keeps a condition from having a text.
-/
theorem condition_parses_iff (ctx : RenderContext) (home : Alias) (e : Operation)
    (he : e.isCondition)
    : let written := e.relocate (ctx.tableOf home)
      (e.isFinite →
        ∃ f, e.toExpr.fragment ctx = .ok f
          ∧ ((∃ d, Parses home f d ∧ Regroups BinaryOp.connects d written) ↔ e.keepsOperands)
          ∧ (e.keepsOperands →
              Parses home f written.regroup ∧ (∀ d, Parses home f d → d = written.regroup)
                ∧ parse? home f = some written.regroup
                ∧ Regroups BinaryOp.connects written.regroup written))
      ∧ (¬ e.isFinite →
        ∃ x : Binary64, ¬ x.isFinite
          ∧ e.toExpr.fragment ctx = .error (.nonFiniteLiteral x)) := by
  intro written
  refine ⟨fun hfinite => ?_, fragment_eq_error ctx⟩
  obtain ⟨f, hf⟩ := exists_fragment ctx hfinite
  have hoperators := hasOperators_of_isCondition he ctx.profile
  have hregroups := regroups_of_isCondition he (ctx.tableOf home)
  refine ⟨f, hf, ⟨?_, ?_⟩, ?_⟩
  · rintro ⟨d, hd, hd'⟩
    exact keepsOperands_of_regroups hoperators hf hd hd'
  · exact fun hkeeps => ⟨_, parses_fragment home hoperators hkeeps hf, hregroups⟩
  · intro hkeeps
    have hparses := parses_fragment home hoperators hkeeps hf
    exact ⟨hparses, fun d hd => hd.unique hparses, hparses.parse?_eq, hregroups⟩

-- A chain that is grouped to the right, with a comparison as the operand of LIKE and conditions in
-- a list, and a pattern that is infinite.
theorem condition_parses_iff_chain
    : let ctx : RenderContext := { profile := Vendor.generic.profile }
      let a : Operation := .column ⟨0⟩ "a"
      let equal : Operation := .binary .eq a (.param "p")
      let unlike : Operation := .like equal (.literal (.text "x%")) (some '!') true
      let member : Operation := .inList a [.binary .or a equal, .isNull equal false] false
      let e : Operation := .binary .and unlike (.binary .and member (.unary .not unlike))
      let d : Operation := .binary .and (.binary .and unlike member) (.unary .not unlike)
      let infinite : Operation := .like a (.literal (.float ⟨0x7FF0000000000000⟩)) none false
      (e.isCondition ∧ e.isFinite ∧ e.keepsOperands)
        ∧ e.toExpr.sql ctx = .ok
            ⟨"t0.a = ? NOT LIKE 'x%' ESCAPE '!' AND t0.a IN (t0.a OR t0.a = ?, (t0.a = ?) IS NULL)"
              ++ " AND NOT (t0.a = ? NOT LIKE 'x%' ESCAPE '!')", ["p", "p", "p", "p"]⟩
        ∧ (∃ f, e.toExpr.fragment ctx = .ok f ∧ Parses ⟨0⟩ f d ∧ (∀ d', Parses ⟨0⟩ f d' → d' = d)
            ∧ Regroups BinaryOp.connects d e)
        ∧ infinite.isCondition ∧ ¬ infinite.isFinite
        ∧ ∃ x : Binary64, ¬ x.isFinite
            ∧ infinite.toExpr.fragment ctx = .error (.nonFiniteLiteral x) := by
  intro ctx a equal unlike member e d infinite
  obtain ⟨f, hf, -, hkeeps⟩ := (condition_parses_iff ctx ⟨0⟩ e rfl).1 rfl
  obtain ⟨hparses, hunique, -, hregroups⟩ := hkeeps rfl
  have hinfinite : ¬ infinite.isFinite := by decide +kernel
  exact ⟨⟨rfl, rfl, rfl⟩, by decide +kernel, ⟨f, hf, hparses, hunique, hregroups⟩, rfl, hinfinite,
    (condition_parses_iff ctx ⟨0⟩ infinite rfl).2 hinfinite⟩

-- The last operand of OR is taken for that of LIKE.
theorem like_takes_last_operand
    : let ctx : RenderContext := { profile := Vendor.generic.profile }
      let a : Operation := .column ⟨0⟩ "a"
      let b : Operation := .column ⟨0⟩ "b"
      let pattern : Operation := .literal (.text "x")
      let e : Operation := .like (.binary .or a b) pattern none false
      let d : Operation := .binary .or a (.like b pattern none false)
      e.isCondition
        ∧ e.toExpr.sql ctx = .ok ⟨"t0.a OR t0.b LIKE 'x'", []⟩
        ∧ ∃ f, e.toExpr.fragment ctx = .ok f ∧ Parses ⟨0⟩ f d ∧ (∀ d', Parses ⟨0⟩ f d' → d' = d)
            ∧ ¬ Regroups BinaryOp.connects d e := by
  intro ctx a b pattern e d
  -- Both have the same text, and it is that of the second one.
  obtain ⟨f, hf⟩ := exists_fragment ctx (e := d) rfl
  have hparses : Parses ⟨0⟩ f d :=
    parses_fragment ⟨0⟩ (hasOperators_of_isCondition rfl ctx.profile) rfl hf
  refine ⟨rfl, by decide +kernel, f, hf, hparses, fun d' hd' => hd'.unique hparses, fun h => ?_⟩
  cases h.level_eq

end Operation

end SqlDialect
