import SqlDialect.Proofs.Expr.Faults

/-!
This module contains the laws of equality of expressions. It is symmetric, and every expression
whose floats are finite is equal to itself.
-/

namespace SqlDialect

theorem Literal.equals_comm (v w : Literal) : v.equals w = w.equals v := by
  cases v with
  | float x =>
    cases w with
    | float y => exact Binary64.equals_comm x y
    | _ => rfl
  | null => cases w <;> rfl
  | int | text | bool => cases w <;> simp only [equals, BEq.comm]

namespace Expr

theorem equals_comm_and_equalsAll_comm
    : (∀ e f : Expr, e.equals f = f.equals e)
        ∧
      ∀ es fs : List Expr, equalsAll es fs = equalsAll fs es := by
  apply equals.mutual_induct
  case case2 =>
    intro v w
    simp only [equals, Literal.equals_comm]
  case case23 =>
    intros
    rw [equals, equals] <;> tauto
  case case26 =>
    intros
    rw [equalsAll, equalsAll] <;> tauto
  all_goals
    intros
    simp only [equals, equalsAll, BEq.comm, *]

theorem equals_comm (e f : Expr) : e.equals f = f.equals e :=
  equals_comm_and_equalsAll_comm.left e f

def isFinitePart : Expr → Bool
  | .literal value => value.isFinite
  | _ => true

def isFinite (e : Expr) : Bool := e.parts.all isFinitePart

mutual

theorem equals_self : ∀ {e : Expr}, e.isFinite → e.equals e := by
  intro e h
  cases e with
  | literal value => exact Literal.equals_self (by simpa [isFinite, parts, isFinitePart] using h)
  | column | param | existsIn | clock | aggregateRows | raw => simp [equals]
  | unary _ a | isNull a | inSelect a | cast a | textFunction _ a | aggregate _ a =>
    simp only [isFinite, parts, List.all_append, Bool.and_eq_true] at h
    simp [equals, equals_self h.1]
  | binary _ a b | like a b | trim a b | concat a b | suffix a b | indexOf a b =>
    simp only [isFinite, parts, List.all_append, Bool.and_eq_true] at h
    simp [equals, equals_self h.1, equals_self h.2.1]
  | inList a vs =>
    simp only [isFinite, parts, List.all_append, Bool.and_eq_true] at h
    simp [equals, equals_self h.1, equalsAll_self h.2.1]
  | substring a b c | indexOfFrom a b c =>
    simp only [isFinite, parts, List.all_append, Bool.and_eq_true] at h
    simp [equals, equals_self h.1, equals_self h.2.1, equals_self h.2.2.1]

theorem equalsAll_self
    : ∀ {es : List Expr}, (allParts es).all isFinitePart → equalsAll es es := by
  intro es h
  cases es with
  | nil => rfl
  | cons e es =>
    simp only [allParts, List.all_append, Bool.and_eq_true] at h
    simp [equalsAll, equals_self h.1, equalsAll_self h.2]

end

end Expr
end SqlDialect
