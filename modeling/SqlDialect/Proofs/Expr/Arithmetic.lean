import SqlDialect.Profile.Default
import SqlDialect.Proofs.Expr.Reading

/-!
This module contains the values of arithmetic expressions and of their texts. Sums keep their value,
however they are grouped, and so do products. But if a quotient or a remainder is multiplied from
the left, its text has no parentheses, and the product is divided instead.
-/

namespace SqlDialect

/--
What the atoms of an arithmetic expression stand for, and how integers are divided.
-/
structure Valuation where
  column : Alias → String → Int
  param : String → Int
  quotient : Int → Int → Int
  remainder : Int → Int → Int

namespace BinaryOp

open Operation (Level)

def result? (ν : Valuation) : BinaryOp → Int → Int → Option Int
  | .add, a, b => some (a + b)
  | .sub, a, b => some (a - b)
  | .mul, a, b => some (a * b)
  | .div, a, b => if b = 0 then none else some (ν.quotient a b)
  | .mod, a, b => if b = 0 then none else some (ν.remainder a b)
  | _, _, _ => none

def reassociates : BinaryOp → BinaryOp → Bool
  | .add, .add | .add, .sub | .mul, .mul => true
  | _, _ => false

theorem reassociates_cases {op op' : BinaryOp} (h : op.reassociates op')
    : op = .add ∧ op' = .add ∨ op = .add ∧ op' = .sub ∨ op = .mul ∧ op' = .mul := by
  cases op <;> cases op' <;> simp_all [reassociates]

def isDivision : BinaryOp → Bool
  | .div | .mod => true
  | _ => false

end BinaryOp

namespace Operation

/-! ## Values -/

def value (ν : Valuation) : Operation → Option Int
  | .column a name => some (ν.column a name)
  | .literal (.int n) => some n
  | .param name => some (ν.param name)
  | .binary op left right => do
    let a ← left.value ν
    let b ← right.value ν
    op.result? ν a b
  | .unary .neg operand => return - (← operand.value ν)
  | _ => none

theorem value_assoc (ν : Valuation) {op op' : BinaryOp} (h : op.reassociates op')
    (a b c : Operation)
    : (binary op' (.binary op a b) c).value ν = (binary op a (.binary op' b c)).value ν := by
  simp only [value]
  obtain ⟨rfl, rfl⟩ | ⟨rfl, rfl⟩ | ⟨rfl, rfl⟩ := BinaryOp.reassociates_cases h
  all_goals
    cases a.value ν <;> cases b.value ν <;> cases c.value ν <;>
      simp [BinaryOp.result?, Int.add_assoc, Int.add_sub_assoc, Int.mul_assoc]

theorem Regroups.value_eq (ν : Valuation) {d e : Operation}
    (h : Regroups BinaryOp.reassociates d e) : d.value ν = e.value ν := by
  induction h with
  | refl => rfl
  | symm _ ih => exact ih.symm
  | trans _ _ ih ih' => exact ih.trans ih'
  | assoc h a b c => exact value_assoc ν h a b c
  | binary op _ _ ihl ihr => simp only [value, ihl, ihr]
  | unary op _ ih => cases op <;> simp only [value, ih]
  | isNull | like | inList | listValue => rfl

/-! ## Arithmetic expressions -/

def isArithmeticPart : Operation → Bool
  | .column .. | .literal (.int _) | .param _ | .unary .neg _ => true
  | .binary op _ _ => op.level = .sum || op.level = .product
  | _ => false

def isArithmetic (e : Operation) : Bool := e.parts.all isArithmeticPart

def keepsFactor : Operation → Bool
  | .binary .mul _ right => (right.chainOps .product).all (· = .mul)
  | _ => true

def keepsFactors (e : Operation) : Bool := e.parts.all keepsFactor

@[simp]
theorem chainOps_relocate (f : Alias → Alias) (level : Level) (e : Operation)
    : (e.relocate f).chainOps level = e.chainOps level := by
  induction e with
  | binary op l r ihl ihr => simp only [relocate, chainOps, ihl, ihr]
  | _ => rfl

theorem keepsFactors_relocate (f : Alias → Alias) (e : Operation)
    : (e.relocate f).keepsFactors = e.keepsFactors := by
  rw [keepsFactors, parts_relocate, List.all_map]
  congr 1
  funext d
  cases d with
  | binary op l r => cases op <;> simp [relocate, keepsFactor]
  | _ => rfl

theorem isArithmetic_relocate (f : Alias → Alias) (e : Operation)
    : (e.relocate f).isArithmetic = e.isArithmetic := by
  rw [isArithmetic, parts_relocate, List.all_map]
  congr 1
  funext d
  cases d with
  | unary op e => cases op <;> rfl
  | _ => rfl

/-! ## Dividends -/

def atoms : Operation → Nat
  | .binary _ left right => left.atoms + right.atoms
  | .unary _ operand => operand.atoms
  | _ => 1

def dividends : Operation → Nat
  | .binary op left right =>
    (if op.isDivision then left.atoms else 0) + left.dividends + right.dividends
  | .unary _ operand => operand.dividends
  | _ => 0

theorem atoms_pos (e : Operation) : 0 < e.atoms := by
  induction e with
  | binary op l r ihl ihr => exact Nat.add_pos_left ihl _
  | unary op e ih => exact ih
  | _ => exact Nat.one_pos

theorem Regroups.atoms_eq {either : BinaryOp → BinaryOp → Bool} {d e : Operation}
    (h : Regroups either d e) : d.atoms = e.atoms := by
  induction h with
  | refl => rfl
  | symm _ ih => exact ih.symm
  | trans _ _ ih ih' => exact ih.trans ih'
  | assoc h a b c => simp only [atoms, Nat.add_assoc]
  | binary op _ _ ihl ihr => simp only [atoms, ihl, ihr]
  | unary op _ ih => simp only [atoms, ih]
  | isNull | like | inList | listValue => rfl

theorem Regroups.dividends_eq {d e : Operation} (h : Regroups BinaryOp.reassociates d e)
    : d.dividends = e.dividends := by
  induction h with
  | refl => rfl
  | symm _ ih => exact ih.symm
  | trans _ _ ih ih' => exact ih.trans ih'
  | assoc h a b c =>
    obtain ⟨rfl, rfl⟩ | ⟨rfl, rfl⟩ | ⟨rfl, rfl⟩ := BinaryOp.reassociates_cases h
    all_goals
      simp only [dividends, BinaryOp.isDivision, Bool.false_eq_true, if_false]
      omega
  | binary op hl _ ihl ihr => simp only [dividends, ihl, ihr, hl.atoms_eq]
  | unary op _ ih => simp only [dividends, ih]
  | isNull | like | inList | listValue => rfl

theorem atoms_graft (op : BinaryOp) (x e : Operation)
    : (graft op x e).atoms = x.atoms + e.atoms := by
  induction e with
  | binary op' l r ihl ihr =>
    unfold graft
    split
    · simp only [atoms, ihl, Nat.add_assoc]
    · rfl
  | _ => rfl

@[simp]
theorem atoms_regroup (e : Operation) : e.regroup.atoms = e.atoms := by
  induction e with
  | binary op l r ihl ihr =>
    unfold regroup
    split
    · rw [atoms_graft, ihl, ihr, atoms]
    · rw [atoms, ihl, ihr, atoms]
  | unary op e ih => exact ih
  | _ => rfl

theorem dividends_graft {op : BinaryOp} (hop : op.isDivision = false) (x e : Operation)
    : (graft op x e).dividends
        =
      x.dividends + e.dividends + x.atoms * (e.leftOps op.level).countP (·.isDivision) := by
  have htop : ∀ e : Operation, e.leftOps op.level = [] →
      (binary op x e).dividends
        = x.dividends + e.dividends + x.atoms * (e.leftOps op.level).countP (·.isDivision) := by
    intro e he
    simp [dividends, hop, he]
  induction e with
  | binary op' l r ihl ihr =>
    by_cases hlevel : op'.level = op.level
    · simp only [graft, leftOps, if_pos hlevel, dividends, ihl, atoms_graft, List.countP_append,
        List.countP_singleton]
      split
      · rw [Nat.mul_add]
        omega
      · rw [Nat.add_zero]
        omega
    · rw [graft, if_neg hlevel]
      exact htop _ (if_neg hlevel)
  | _ => exact htop _ rfl

theorem keepsFactor_of_countP {op : BinaryOp} {l r : Operation}
    (h : (r.chainOps op.level).countP (·.isDivision) = 0) : (binary op l r).keepsFactor := by
  cases op with
  | mul =>
    rw [keepsFactor, List.all_eq_true]
    intro op hop
    have hlevel : op.level = .product := level_of_mem_chainOps hop
    have hdivision : ¬ op.isDivision := List.countP_eq_zero.mp h op hop
    cases op <;> simp_all [BinaryOp.level, BinaryOp.isDivision]
  | _ => rfl

theorem dividends_le_regroup (e : Operation) : e.dividends ≤ e.regroup.dividends := by
  induction e with
  | binary op l r ihl ihr =>
    unfold regroup
    split
    · next hassoc =>
      have hop : op.isDivision = false := by
        cases op <;> first | rfl | cases hassoc
      rw [dividends_graft hop, dividends, hop]
      simp only [Bool.false_eq_true, if_false]
      omega
    · rw [dividends, dividends, atoms_regroup]
      omega
  | unary op e ih => exact ih
  | _ => exact Nat.le_refl _

theorem keepsFactors_of_dividends {e : Operation} (he : e.isArithmetic)
    (h : e.regroup.dividends ≤ e.dividends) : e.keepsFactors := by
  induction e with
  | column | literal | param => rfl
  | binary op l r ihl ihr =>
    simp only [isArithmetic, parts, List.all_cons, List.all_append, Bool.and_eq_true] at he
    obtain ⟨hop, hl, hr⟩ := he
    have hldividends := l.dividends_le_regroup
    have hrdividends := r.dividends_le_regroup
    simp only [keepsFactors, parts, List.all_cons, List.all_append, Bool.and_eq_true]
    cases hassoc : op.isAssociative with
    | false =>
      have hfactor : (binary op l r).keepsFactor := by
        cases op <;> first | rfl | cases hassoc
      rw [regroup, hassoc, if_neg Bool.false_ne_true, dividends, dividends, atoms_regroup] at h
      exact ⟨hfactor, ihl hl (by omega), ihr hr (by omega)⟩
    | true =>
      have hdivision : op.isDivision = false := by
        cases op <;> first | rfl | cases hassoc
      rw [regroup, hassoc, if_pos rfl, dividends_graft hdivision, dividends, hdivision,
        leftOps_regroup] at h
      simp only [Bool.false_eq_true, if_false] at h
      refine ⟨?_, ihl hl (by omega), ihr hr (by omega)⟩
      have hcount : l.regroup.atoms * (r.chainOps op.level).countP (·.isDivision) = 0 := by omega
      have hcount := (Nat.mul_eq_zero.mp hcount).resolve_left (Nat.ne_of_gt (atoms_pos _))
      exact keepsFactor_of_countP hcount
  | unary op e ih =>
    simp only [isArithmetic, parts, List.all_cons, Bool.and_eq_true] at he
    simp only [keepsFactors, parts, List.all_cons, Bool.and_eq_true]
    exact ⟨rfl, ih he.2 h⟩
  | isNull | like | inList => cases he

/-! ## Texts -/

theorem groupsEither_of_keepsFactor {d : Operation} (hd : d.isArithmeticPart)
    (h : d.keepsFactor) : d.groupsEither BinaryOp.reassociates := by
  cases d with
  | binary op l r =>
    cases op with
    | add =>
      rw [groupsEither, Bool.or_eq_true, List.all_eq_true]
      refine .inr fun op hop => ?_
      have hlevel : op.level = .sum := level_of_mem_chainOps hop
      cases op <;> first | rfl | cases hlevel
    | mul =>
      rw [groupsEither, Bool.or_eq_true, List.all_eq_true]
      refine .inr fun op hop => ?_
      obtain rfl : op = .mul := by simpa using List.all_eq_true.mp h op hop
      rfl
    | and | or => cases hd
    | _ => rfl
  | _ => rfl

section Arithmetic

variable {e : Operation} (he : e.isArithmetic)

include he

theorem isFinite_of_isArithmetic : e.isFinite := by
  apply List.all_eq_true.mpr
  intro value hvalue
  obtain ⟨d, hd, hliteral⟩ := List.mem_filterMap.mp hvalue
  have hpart := List.all_eq_true.mp he d hd
  cases d with
  | literal value' =>
    cases hliteral
    cases value with
    | int n => rfl
    | _ => cases hpart
  | _ => cases hliteral

theorem keepsOperands_of_isArithmetic : e.keepsOperands := by
  apply List.all_eq_true.mpr
  intro d hd
  have hpart := List.all_eq_true.mp he d hd
  cases d with
  | like | inList => cases hpart
  | _ => rfl

theorem regroups_iff_keepsFactors
    : Regroups BinaryOp.reassociates e.regroup e ↔ e.keepsFactors := by
  constructor
  · intro h
    exact keepsFactors_of_dividends he (Nat.le_of_eq h.dividends_eq)
  · intro h
    apply regroups_regroup
    apply List.all_eq_true.mpr
    intro d hd
    exact groupsEither_of_keepsFactor (List.all_eq_true.mp he d hd) (List.all_eq_true.mp h d hd)

end Arithmetic

/--
The text of an arithmetic expression has one tree in the grammar. It is the tree of the expression,
grouped to the left, and its value is that of the expression if no quotient or remainder is a factor
on the right of a product.
-/
theorem arithmetic_parses (ctx : RenderContext) (hmod : ctx.profile.supports .modOperator)
    (home : Alias) (e : Operation) (he : e.isArithmetic)
    : let written := e.relocate (ctx.tableOf home)
      ∃ f, e.toExpr.fragment ctx = .ok f
        ∧ Parses home f written.regroup
        ∧ (∀ d, Parses home f d → d = written.regroup)
        ∧ parse? home f = some written.regroup
        ∧ (Regroups BinaryOp.reassociates written.regroup written ↔ e.keepsFactors)
        ∧ (e.keepsFactors → ∀ ν, written.regroup.value ν = written.value ν) := by
  intro written
  obtain ⟨f, hf⟩ := exists_fragment ctx (isFinite_of_isArithmetic he)
  have hparses : Parses home f written.regroup :=
    parses_fragment home (hasOperators_of_supports hmod e) (keepsOperands_of_isArithmetic he) hf
  have hregroups : Regroups BinaryOp.reassociates written.regroup written ↔ e.keepsFactors := by
    rw [← keepsFactors_relocate (ctx.tableOf home) e]
    apply regroups_iff_keepsFactors
    rwa [isArithmetic_relocate]
  refine ⟨f, hf, hparses, fun d hd => hd.unique hparses, hparses.parse?_eq, hregroups, ?_⟩
  intro hfactors ν
  exact (hregroups.mpr hfactors).value_eq ν

-- A sum and a product that are grouped to the right, in parentheses and without.
theorem arithmetic_parses_nested
    : let ctx : RenderContext := { profile := Vendor.postgres.profile }
      let a : Operation := .column ⟨0⟩ "a"
      let b : Operation := .column ⟨0⟩ "b"
      let p : Operation := .param "p"
      let rest : Operation := .unary .neg (.binary .mod a (.literal (.int 7)))
      let e : Operation := .binary .mul (.binary .add a (.binary .sub b p)) (.binary .mul b rest)
      let d : Operation := .binary .mul (.binary .mul (.binary .sub (.binary .add a b) p) b) rest
      ctx.profile.supports .modOperator ∧ e.isArithmetic
        ∧ e.toExpr.sql ctx = .ok ⟨"(t0.a + t0.b - ?) * t0.b * -(t0.a % 7)", ["p"]⟩
        ∧ ∃ f, e.toExpr.fragment ctx = .ok f ∧ Parses ⟨0⟩ f d ∧ (∀ d', Parses ⟨0⟩ f d' → d' = d)
            ∧ ∀ ν, d.value ν = e.value ν := by
  intro ctx a b p rest e d
  have hmod : ctx.profile.supports .modOperator := by decide +kernel
  obtain ⟨f, hf, hparses, hunique, -, -, hvalue⟩ := arithmetic_parses ctx hmod ⟨0⟩ e rfl
  exact ⟨hmod, rfl, by decide +kernel, f, hf, hparses, hunique, hvalue rfl⟩

-- The right factor is a quotient that is zero, but the text divides the product.
theorem arithmetic_text_divides_product
    : let ctx : RenderContext := { profile := Vendor.postgres.profile }
      let a : Operation := .column ⟨0⟩ "a"
      let b : Operation := .column ⟨0⟩ "b"
      let c : Operation := .column ⟨0⟩ "c"
      let e : Operation := .binary .mul a (.binary .div b c)
      let d : Operation := .binary .div (.binary .mul a b) c
      let ν : Valuation :=
        { column := fun _ name => if name = "b" then 1 else 2, param := fun _ => 0,
          quotient := Int.tdiv, remainder := Int.tmod }
      e.isArithmetic
        ∧ e.toExpr.sql ctx = .ok ⟨"t0.a * t0.b / t0.c", []⟩
        ∧ (∃ f, e.toExpr.fragment ctx = .ok f ∧ Parses ⟨0⟩ f d ∧ ∀ d', Parses ⟨0⟩ f d' → d' = d)
        ∧ e.value ν = some 0 ∧ d.value ν = some 1 := by
  intro ctx a b c e d ν
  have hmod : ctx.profile.supports .modOperator := by decide +kernel
  have he : e.isArithmetic := rfl
  obtain ⟨f, hf⟩ := exists_fragment ctx (isFinite_of_isArithmetic he)
  have hparses : Parses ⟨0⟩ f d :=
    parses_fragment ⟨0⟩ (hasOperators_of_supports hmod e) (keepsOperands_of_isArithmetic he) hf
  exact ⟨he, by decide +kernel, ⟨f, hf, hparses, fun d' hd' => hd'.unique hparses⟩, by decide,
    by decide⟩

end Operation

end SqlDialect
