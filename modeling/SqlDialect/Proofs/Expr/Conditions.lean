import SqlDialect.Profile.Default
import SqlDialect.Proofs.Expr.Reading

/-!
This module contains the way back from the text of a condition. The grammar gives its tree again, up
to the grouping of connectives, and with it its truth.
-/

namespace SqlDialect

/-! ## Truth -/

abbrev Truth := Option Bool

namespace Truth

def and : Truth → Truth → Truth
  | some false, _ | _, some false => some false
  | some true, some true => some true
  | _, _ => none

def or : Truth → Truth → Truth
  | some true, _ | _, some true => some true
  | some false, some false => some false
  | _, _ => none

def not (t : Truth) : Truth := t.map (!·)

theorem and_assoc : ∀ a b c : Truth, and (and a b) c = and a (and b c) := by
  rintro (_ | _ | _) (_ | _ | _) (_ | _ | _) <;> rfl

theorem or_assoc : ∀ a b c : Truth, or (or a b) c = or a (or b c) := by
  rintro (_ | _ | _) (_ | _ | _) (_ | _ | _) <;> rfl

end Truth

/--
What the atoms of a condition stand for, and what the comparisons make of it.
-/
structure Interpretation where
  column : Alias → String → Truth
  literal : Literal → Truth
  param : String → Truth
  comparison : BinaryOp → Truth → Truth → Truth

namespace Operation

def truth (i : Interpretation) : Operation → Truth
  | .column a name => i.column a name
  | .literal value => i.literal value
  | .param name => i.param name
  | .binary .and left right => (left.truth i).and (right.truth i)
  | .binary .or left right => (left.truth i).or (right.truth i)
  | .binary op left right => i.comparison op (left.truth i) (right.truth i)
  | .unary .not operand => (operand.truth i).not
  | .isNull operand negated => some ((operand.truth i).isNone != negated)
  | .unary .neg _ | .like .. | .inList .. => none

end Operation

def BinaryOp.connects : BinaryOp → BinaryOp → Bool
  | .and, .and | .or, .or => true
  | _, _ => false

theorem BinaryOp.eq_of_connects {op op' : BinaryOp} (h : op.connects op') : op' = op := by
  cases op <;> cases op' <;> first | rfl | cases h

namespace Operation

theorem Regroups.truth_eq {d e : Operation} (h : Regroups BinaryOp.connects d e)
    (i : Interpretation) : d.truth i = e.truth i := by
  induction h with
  | refl => rfl
  | symm _ ih => exact ih.symm
  | trans _ _ ih ih' => exact ih.trans ih'
  | @assoc op op' h a b c =>
    obtain rfl := BinaryOp.eq_of_connects h
    cases op' with
    | and => exact Truth.and_assoc _ _ _
    | or => exact Truth.or_assoc _ _ _
    | _ => cases h
  | binary op _ _ ihl ihr => cases op <;> simp only [truth, ihl, ihr]
  | unary op _ ih => cases op <;> simp only [truth, ih]
  | isNull negated _ ih => simp only [truth, ih]
  | like | inList | listValue => rfl

/-! ## Conditions -/

def isConditionPart : Operation → Bool
  | .binary op _ _ => op.level.rank ≤ Level.comparison.rank
  | .unary .neg _ => false
  | _ => true

def isCondition (e : Operation) : Bool := e.parts.all isConditionPart

theorem hasOperators_of_isCondition {e : Operation} (he : e.isCondition) (p : Profile)
    : e.hasOperators p := by
  apply List.all_eq_true.mpr
  intro d hd
  have hpart := List.all_eq_true.mp he d hd
  cases d with
  | binary op l r => cases op <;> first | rfl | cases hpart
  | _ => rfl

theorem groupsEither_of_isConditionPart {d : Operation} (hd : d.isConditionPart)
    : d.groupsEither BinaryOp.connects := by
  cases d with
  | binary op l r =>
    cases op with
    | and | or =>
      rw [groupsEither, Bool.or_eq_true, List.all_eq_true]
      refine .inr fun op hop => ?_
      have hlevel := level_of_mem_chainOps hop
      cases op <;> first | rfl | cases hlevel
    | add | mul => cases hd
    | _ => rfl
  | _ => rfl

theorem isCondition_relocate (f : Alias → Alias) (e : Operation)
    : (e.relocate f).isCondition = e.isCondition := by
  rw [isCondition, parts_relocate, List.all_map]
  congr 1
  funext d
  cases d with
  | unary op e => cases op <;> rfl
  | _ => rfl

theorem regroups_of_isCondition {e : Operation} (he : e.isCondition) (f : Alias → Alias)
    : Regroups BinaryOp.connects (e.relocate f).regroup (e.relocate f) := by
  rw [← isCondition_relocate f] at he
  apply regroups_regroup
  apply List.all_eq_true.mpr
  exact fun d hd => groupsEither_of_isConditionPart (List.all_eq_true.mp he d hd)

def isLogicalPart : Operation → Bool
  | .like .. | .inList .. => false
  | e => e.isConditionPart

/--
Whether an expression is made by the connectives, the comparisons and tests for NULL alone.
-/
def isLogical (e : Operation) : Bool := e.parts.all isLogicalPart

theorem isCondition_of_isLogical {e : Operation} (he : e.isLogical) : e.isCondition := by
  apply List.all_eq_true.mpr
  intro d hd
  have hpart := List.all_eq_true.mp he d hd
  cases d with
  | like | inList => cases hpart
  | _ => exact hpart

theorem keepsOperands_of_isLogical {e : Operation} (he : e.isLogical) : e.keepsOperands := by
  apply List.all_eq_true.mpr
  intro d hd
  have hpart := List.all_eq_true.mp he d hd
  cases d with
  | like | inList => cases hpart
  | _ => rfl

/--
The text of a condition without LIKE and IN has one tree in the grammar. It is the tree of the
condition, with the connectives grouped to the left, and so it is true, false or unknown whenever
the condition is. Where columns stand without their tables, they are taken for columns of `home`.
Only a literal that is not finite keeps a condition from having a text.
-/
theorem fragment_parses (ctx : RenderContext) (home : Alias) (e : Operation) (he : e.isLogical)
    : let written := e.relocate (ctx.tableOf home)
      (e.isFinite →
        ∃ f, e.toExpr.fragment ctx = .ok f
          ∧ Parses home f written.regroup ∧ (∀ d, Parses home f d → d = written.regroup)
          ∧ parse? home f = some written.regroup
          ∧ Regroups BinaryOp.connects written.regroup written
          ∧ ∀ i, written.regroup.truth i = written.truth i)
      ∧ (¬ e.isFinite →
        ∃ x : Binary64, ¬ x.isFinite
          ∧ e.toExpr.fragment ctx = .error (.nonFiniteLiteral x)) := by
  intro written
  refine ⟨fun hfinite => ?_, fragment_eq_error ctx⟩
  obtain ⟨f, hf⟩ := exists_fragment ctx hfinite
  have hcondition := isCondition_of_isLogical he
  have hparses : Parses home f written.regroup :=
    parses_fragment home (hasOperators_of_isCondition hcondition ctx.profile)
      (keepsOperands_of_isLogical he) hf
  have hregroups := regroups_of_isCondition hcondition (ctx.tableOf home)
  exact ⟨f, hf, hparses, fun d hd => hd.unique hparses, hparses.parse?_eq, hregroups,
    hregroups.truth_eq⟩

-- A chain that is grouped to the right, with operands that have to be in parentheses, and a
-- comparison with infinity.
theorem fragment_parses_chain
    : let ctx : RenderContext := { profile := Vendor.generic.profile }
      let a : Operation := .column ⟨0⟩ "A"
      let equal : Operation := .binary .eq a (.param "p")
      let test : Operation := .binary .eq equal (.isNull equal true)
      let both : Operation := .binary .and a (.unary .not equal)
      let e : Operation := .binary .or a (.binary .or both test)
      let d : Operation := .binary .or (.binary .or a both) test
      let infinite : Operation := .binary .lt a (.literal (.float ⟨0x7FF0000000000000⟩))
      (e.isLogical ∧ e.isFinite)
        ∧ e.toExpr.sql ctx = .ok
            ⟨"t0.A OR t0.A AND NOT (t0.A = ?) OR t0.A = ? = ((t0.A = ?) IS NOT NULL)",
              ["p", "p", "p"]⟩
        ∧ (∃ f, e.toExpr.fragment ctx = .ok f ∧ Parses ⟨0⟩ f d
            ∧ (∀ d', Parses ⟨0⟩ f d' → d' = d) ∧ Regroups BinaryOp.connects d e
            ∧ ∀ i, d.truth i = e.truth i)
        ∧ (infinite.isLogical ∧ ¬ infinite.isFinite)
        ∧ ∃ x : Binary64, ¬ x.isFinite
            ∧ infinite.toExpr.fragment ctx = .error (.nonFiniteLiteral x) := by
  intro ctx a equal test both e d infinite
  obtain ⟨f, hf, hparses, hunique, -, hregroups, htruth⟩ := (fragment_parses ctx ⟨0⟩ e rfl).1 rfl
  have hinfinite : ¬ infinite.isFinite := by decide +kernel
  exact ⟨⟨rfl, rfl⟩, by decide +kernel, ⟨f, hf, hparses, hunique, hregroups, htruth⟩,
    ⟨rfl, hinfinite⟩, (fragment_parses ctx ⟨0⟩ infinite rfl).2 hinfinite⟩

end Operation

end SqlDialect
