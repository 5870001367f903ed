import SqlDialect.Proofs.Expr.Operation

/-!
This module contains the trees that the texts of expressions have. If the operand on the right of an
associative operator is at the level of that operator, it has no parentheses, and its operators
apply to all that stands before them. The tree of the text differs from that of the expression only
in how chains are grouped, if the operators in them may be grouped either way.
-/

namespace SqlDialect

namespace Operation

/-! ## Parts -/

mutual

def parts : Operation → List Operation
  | .column a name => [.column a name]
  | .literal value => [.literal value]
  | .param name => [.param name]
  | .binary op left right => .binary op left right :: (left.parts ++ right.parts)
  | .unary op operand => .unary op operand :: operand.parts
  | .isNull operand negated => .isNull operand negated :: operand.parts
  | .like operand pattern escape negated =>
    .like operand pattern escape negated :: (operand.parts ++ pattern.parts)
  | .inList operand values negated =>
    .inList operand values negated :: (operand.parts ++ partsOfAll values)

def partsOfAll : List Operation → List Operation
  | [] => []
  | e :: es => e.parts ++ partsOfAll es

end

theorem partsOfAll_eq (es : List Operation) : partsOfAll es = es.flatMap parts := by
  induction es with
  | nil => rfl
  | cons e es ih => rw [partsOfAll, ih, List.flatMap_cons]

def level : Operation → Level
  | .column .. | .literal _ | .param _ => .primary
  | .binary op _ _ => op.level
  | .unary .not _ => .negation
  | .unary .neg _ => .sign
  | .isNull .. | .like .. | .inList .. => .comparison

/-! ## Trees -/

mutual

def relocate (f : Alias → Alias) : Operation → Operation
  | .column a name => .column (f a) name
  | .literal value => .literal value
  | .param name => .param name
  | .binary op left right => .binary op (left.relocate f) (right.relocate f)
  | .unary op operand => .unary op (operand.relocate f)
  | .isNull operand negated => .isNull (operand.relocate f) negated
  | .like operand pattern escape negated =>
    .like (operand.relocate f) (pattern.relocate f) escape negated
  | .inList operand values negated => .inList (operand.relocate f) (relocateAll f values) negated

def relocateAll (f : Alias → Alias) : List Operation → List Operation
  | [] => []
  | e :: es => e.relocate f :: relocateAll f es

end

/--
The tree of two texts with an operator between them. The operators of the second one that are at the
same level apply to all that stands before them.
-/
def graft (op : BinaryOp) (x : Operation) : Operation → Operation
  | .binary op' left right =>
    if op'.level = op.level then
      .binary op' (graft op x left) right
    else
      .binary op x (.binary op' left right)
  | e => .binary op x e

mutual

/--
The tree of the text of an expression.
-/
def regroup : Operation → Operation
  | .binary op left right =>
    if op.isAssociative then
      graft op left.regroup right.regroup
    else
      .binary op left.regroup right.regroup
  | .unary op operand => .unary op operand.regroup
  | .isNull operand negated => .isNull operand.regroup negated
  | .like operand pattern escape negated => .like operand.regroup pattern.regroup escape negated
  | .inList operand values negated => .inList operand.regroup (regroupAll values) negated
  | .column a name => .column a name
  | .literal value => .literal value
  | .param name => .param name

def regroupAll : List Operation → List Operation
  | [] => []
  | e :: es => e.regroup :: regroupAll es

end

@[simp]
theorem level_relocate (f : Alias → Alias) (e : Operation) : (e.relocate f).level = e.level := by
  cases e with
  | unary op e => cases op <;> rfl
  | _ => rfl

theorem level_graft {op : BinaryOp} (x e : Operation) : (graft op x e).level = op.level := by
  cases e with
  | binary op' l r =>
    unfold graft
    split
    · next h => exact h
    · rfl
  | _ => rfl

@[simp]
theorem level_regroup (e : Operation) : e.regroup.level = e.level := by
  cases e with
  | binary op l r =>
    unfold regroup
    split
    · exact level_graft _ _
    · rfl
  | unary op e => cases op <;> rfl
  | _ => rfl

theorem graft_of_level_ne {op : BinaryOp} (x : Operation) {e : Operation} (h : e.level ≠ op.level)
    : graft op x e = .binary op x e := by
  cases e with
  | binary op' l r => exact if_neg h
  | _ => rfl

theorem relocateAll_eq (f : Alias → Alias) (es : List Operation)
    : relocateAll f es = es.map (relocate f) := by
  induction es with
  | nil => rfl
  | cons e es ih => rw [relocateAll, ih, List.map_cons]

theorem parts_relocate (f : Alias → Alias) (e : Operation)
    : (e.relocate f).parts = e.parts.map (relocate f) := by
  induction e with
  | column | literal | param => rfl
  | binary op l r ihl ihr => simp [relocate, parts, ihl, ihr]
  | unary op e ih => simp [relocate, parts, ih]
  | isNull e negated ih => simp [relocate, parts, ih]
  | like e pattern escape negated ihe ihpattern => simp [relocate, parts, ihe, ihpattern]
  | inList e values negated ihe ihvalues =>
    have hvalues : (values.map (relocate f)).flatMap parts
        = (values.flatMap parts).map (relocate f) := by
      rw [List.flatMap_map, List.map_flatMap]
      exact List.flatMap_congr ihvalues
    simp [relocate, relocateAll_eq, parts, partsOfAll_eq, ihe, hvalues]

theorem regroupAll_eq (es : List Operation) : regroupAll es = es.map regroup := by
  induction es with
  | nil => rfl
  | cons e es ih => rw [regroupAll, ih, List.map_cons]

/-! ## Operators of a chain -/

def leftOps (level : Level) : Operation → List BinaryOp
  | .binary op left _ => if op.level = level then left.leftOps level ++ [op] else []
  | _ => []

def chainOps (level : Level) : Operation → List BinaryOp
  | .binary op left right =>
    if op.level = level then
      left.chainOps level ++ op :: if op.isAssociative then right.chainOps level else []
    else
      []
  | _ => []

theorem leftOps_graft (op : BinaryOp) (x e : Operation)
    : (graft op x e).leftOps op.level = x.leftOps op.level ++ op :: e.leftOps op.level := by
  induction e with
  | binary op' l r ihl ihr =>
    by_cases h : op'.level = op.level
    · simp [graft, leftOps, h, ihl]
    · simp [graft, leftOps, h]
  | _ => simp [graft, leftOps]

theorem leftOps_of_level_ne {level : Level} {e : Operation} (h : e.level ≠ level)
    : e.leftOps level = [] := by
  cases e with
  | binary op l r => exact if_neg h
  | _ => rfl

theorem leftOps_regroup (level : Level) (e : Operation)
    : e.regroup.leftOps level = e.chainOps level := by
  induction e with
  | binary op l r ihl ihr =>
    by_cases hlevel : op.level = level
    · subst hlevel
      cases hassoc : op.isAssociative with
      | true => simp [regroup, chainOps, hassoc, leftOps_graft, ihl, ihr]
      | false => simp [regroup, chainOps, hassoc, leftOps, ihl]
    · rw [leftOps_of_level_ne]
      · exact (if_neg hlevel).symm
      · rw [level_regroup]
        exact hlevel
  | _ => rfl

theorem level_of_mem_chainOps {level : Level} {e : Operation} {op : BinaryOp}
    (h : op ∈ e.chainOps level) : op.level = level := by
  induction e with
  | binary op' l r ihl ihr =>
    unfold chainOps at h
    split at h
    · next hlevel =>
      rcases List.mem_append.mp h with h | h
      · exact ihl h
      · rcases List.mem_cons.mp h with rfl | h
        · exact hlevel
        · split at h
          · exact ihr h
          · cases h
    · cases h
  | _ => cases h

/-! ## Regrouping -/

/--
Trees that differ only in how chains are grouped. Where the second of two operators may be applied
before the first one, `either` holds of them.
-/
inductive Regroups (either : BinaryOp → BinaryOp → Bool) : Operation → Operation → Prop where
  | refl (e : Operation) : Regroups either e e
  | symm {d e : Operation} (h : Regroups either d e) : Regroups either e d
  | trans {c d e : Operation} (h : Regroups either c d) (h' : Regroups either d e) :
      Regroups either c e
  | assoc {op op' : BinaryOp} (h : either op op') (a b c : Operation) :
      Regroups either (.binary op' (.binary op a b) c) (.binary op a (.binary op' b c))
  | binary (op : BinaryOp) {l l' r r' : Operation} (hl : Regroups either l l')
      (hr : Regroups either r r') : Regroups either (.binary op l r) (.binary op l' r')
  | unary (op : UnaryOp) {e e' : Operation} (h : Regroups either e e') :
      Regroups either (.unary op e) (.unary op e')
  | isNull {e e' : Operation} (negated : Bool) (h : Regroups either e e') :
      Regroups either (.isNull e negated) (.isNull e' negated)
  | like {e e' pattern pattern' : Operation} (escape : Option Char) (negated : Bool)
      (h : Regroups either e e') (hpattern : Regroups either pattern pattern') :
      Regroups either (.like e pattern escape negated) (.like e' pattern' escape negated)
  | inList {e e' : Operation} (values : List Operation) (negated : Bool)
      (h : Regroups either e e') :
      Regroups either (.inList e values negated) (.inList e' values negated)
  | listValue (e : Operation) (before after : List Operation) {v v' : Operation} (negated : Bool)
      (h : Regroups either v v') :
      Regroups either (.inList e (before ++ v :: after) negated)
        (.inList e (before ++ v' :: after) negated)

def groupsEither (either : BinaryOp → BinaryOp → Bool) : Operation → Bool
  | .binary op _ right => !op.isAssociative || (right.chainOps op.level).all (either op)
  | _ => true

namespace Regroups

variable {either : BinaryOp → BinaryOp → Bool}

theorem graft {op : BinaryOp} (x : Operation) {e : Operation}
    (h : ∀ op' ∈ e.leftOps op.level, either op op')
    : Regroups either (graft op x e) (.binary op x e) := by
  induction e with
  | binary op' l r ihl ihr =>
    by_cases hlevel : op'.level = op.level
    · simp only [leftOps, hlevel, if_true, List.mem_append, List.mem_singleton, or_imp,
        forall_and, forall_eq] at h
      rw [Operation.graft, if_pos hlevel]
      exact (binary op' (ihl h.1) (.refl r)).trans (.assoc h.2 x l r)
    · rw [Operation.graft, if_neg hlevel]
      exact .refl _
  | _ => exact .refl _

theorem values {e : Operation} {negated : Bool} (before : List Operation)
    {values values' : List Operation} (h : List.Forall₂ (Regroups either) values values')
    : Regroups either (.inList e (before ++ values) negated)
        (.inList e (before ++ values') negated) := by
  induction h generalizing before with
  | nil => exact .refl _
  | @cons v v' values values' hv _ ih =>
    apply (Regroups.listValue e before values negated hv).trans
    simpa using ih (before ++ [v'])

end Regroups

/--
The tree of the text is that of the expression, up to the grouping of chains.
-/
theorem regroups_regroup {either : BinaryOp → BinaryOp → Bool} {e : Operation}
    (h : e.parts.all (groupsEither either)) : Regroups either e.regroup e := by
  induction e with
  | column | literal | param => exact .refl _
  | binary op l r ihl ihr =>
    simp only [parts, List.all_cons, List.all_append, Bool.and_eq_true] at h
    obtain ⟨hop, hl, hr⟩ := h
    have hoperands := Regroups.binary op (ihl hl) (ihr hr)
    cases hassoc : op.isAssociative with
    | false => simpa [regroup, hassoc] using hoperands
    | true =>
      simp only [groupsEither, hassoc, Bool.not_true, Bool.false_or, List.all_eq_true] at hop
      rw [regroup, if_pos hassoc]
      apply Regroups.trans _ hoperands
      apply Regroups.graft
      rwa [leftOps_regroup]
  | unary op e ih =>
    simp only [parts, List.all_cons, Bool.and_eq_true] at h
    exact .unary op (ih h.2)
  | isNull e negated ih =>
    simp only [parts, List.all_cons, Bool.and_eq_true] at h
    exact .isNull negated (ih h.2)
  | like e pattern escape negated ihe ihpattern =>
    simp only [parts, List.all_cons, List.all_append, Bool.and_eq_true] at h
    exact .like escape negated (ihe h.2.1) (ihpattern h.2.2)
  | inList e values negated ihe ihvalues =>
    simp only [parts, partsOfAll_eq, List.all_cons, List.all_append, List.all_flatMap,
      Bool.and_eq_true] at h
    have hvalues : List.Forall₂ (Regroups either) (values.map regroup) values := by
      rw [List.forall₂_map_left_iff, List.forall₂_same]
      intro v hv
      exact ihvalues v hv (List.all_eq_true.mp h.2.2 v hv)
    rw [regroup, regroupAll_eq]
    exact (Regroups.inList _ negated (ihe h.2.1)).trans (Regroups.values [] hvalues)

end Operation

end SqlDialect
