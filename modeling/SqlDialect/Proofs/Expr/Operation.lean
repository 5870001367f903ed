import SqlDialect.Expr.Render
import SqlDialect.Proofs.Compile

/-!
This module contains the grammar of all operators. OR binds least, then AND, then NOT, then the
comparisons with IS NULL, LIKE and IN, which are at one level, then sums, then products, and a minus
sign binds most tightly. Operators with two operands group to the left. The grammar is unambiguous:
a reader that goes through the tokens once finds every tree that can be derived.
-/

namespace SqlDialect

/-! ## Words -/

def Token.literal? : Token → Option Literal
  | .int n => some (.int n)
  | .float x => some (.float x)
  | .string s => some (.text s)
  | .bool b => some (.bool b)
  | .keyword .null => some .null
  | _ => none

def Token.nullTest (negated : Bool) : Token := .keyword (if negated then .isNotNull else .isNull)

namespace Fragment

def words (f : Fragment) : List Token := f.tokens.filter (· ≠ .space)

@[simp]
theorem words_append (f g : Fragment) : (f ++ g).words = f.words ++ g.words := by
  simp [words]

@[simp]
theorem words_parens (f : Fragment) : f.parens.words = Token.parens f.words := by
  simp [words, parens, Token.parens]

@[simp]
theorem params_parensIf (f : Fragment) (needed : Bool) : (f.parensIf needed).params = f.params := by
  cases needed <;> rfl

@[simp]
theorem params_ofTokens (ts : List Token) : (ofTokens ts).params = [] := rfl

end Fragment

/-! ## Operations -/

/--
An expression that is made of columns, literals and parameters by operators alone.
-/
inductive Operation where
  | column (table : Alias) (name : String)
  | literal (value : Literal)
  | param (name : String)
  | binary (op : BinaryOp) (left right : Operation)
  | unary (op : UnaryOp) (operand : Operation)
  | isNull (operand : Operation) (negated : Bool)
  | like (operand pattern : Operation) (escape : Option Char) (negated : Bool)
  | inList (operand : Operation) (values : List Operation) (negated : Bool)

namespace Operation

@[elab_as_elim, induction_eliminator]
theorem induction {motive : Operation → Prop} (column : ∀ a name, motive (.column a name))
    (literal : ∀ value, motive (.literal value)) (param : ∀ name, motive (.param name))
    (binary : ∀ op l r, motive l → motive r → motive (.binary op l r))
    (unary : ∀ op e, motive e → motive (.unary op e))
    (isNull : ∀ e negated, motive e → motive (.isNull e negated))
    (like : ∀ e pattern escape negated, motive e → motive pattern →
      motive (.like e pattern escape negated))
    (inList : ∀ e values negated, motive e → (∀ v ∈ values, motive v) →
      motive (.inList e values negated))
    (e : Operation) : motive e :=
  @Operation.rec motive (fun values => ∀ v ∈ values, motive v) column literal param binary unary
    isNull like inList (by simp) (fun _ _ hv hvs => List.forall_mem_cons.mpr ⟨hv, hvs⟩) e

mutual

def toExpr : Operation → Expr
  | .column a name => .column a name
  | .literal value => .literal value
  | .param name => .param name
  | .binary op left right => .binary op left.toExpr right.toExpr
  | .unary op operand => .unary op operand.toExpr
  | .isNull operand negated => .isNull operand.toExpr negated
  | .like operand pattern escape negated => .like operand.toExpr pattern.toExpr escape negated
  | .inList operand values negated => .inList operand.toExpr (toExprs values) negated

def toExprs : List Operation → List Expr
  | [] => []
  | e :: es => e.toExpr :: toExprs es

end

/-! ## Grammar -/

inductive Level where
  | disjunction
  | conjunction
  | negation
  | comparison
  | sum
  | product
  | sign
  | primary
  deriving DecidableEq

def Level.rank : Level → Nat
  | .disjunction => 1
  | .conjunction => 2
  | .negation => 3
  | .comparison => 4
  | .sum => 5
  | .product => 6
  | .sign => 7
  | .primary => 8

theorem Level.disjunction_le_rank (level : Level) : Level.disjunction.rank ≤ level.rank := by
  cases level <;> decide

theorem Level.rank_le_primary (level : Level) : level.rank ≤ Level.primary.rank := by
  cases level <;> decide

def Level.entry : Level → Nat
  | .negation => 4
  | .sign => 8
  | level => level.rank

theorem Level.entry_le {level tighter : Level} (h : level.rank ≤ tighter.rank)
    : level.entry ≤ tighter.entry := by
  cases level <;> cases tighter <;> simp_all [rank, entry]

end Operation

namespace BinaryOp

open Operation (Level)

def level : BinaryOp → Level
  | .or => .disjunction
  | .and => .conjunction
  | .eq | .ne | .lt | .gt | .le | .ge => .comparison
  | .add | .sub => .sum
  | .mul | .div | .mod => .product

def rightLevel : BinaryOp → Level
  | .or => .conjunction
  | .and => .negation
  | .eq | .ne | .lt | .gt | .le | .ge => .sum
  | .add | .sub => .product
  | .mul | .div | .mod => .sign

theorem rank_rightLevel (op : BinaryOp) : op.rightLevel.rank = op.level.rank + 1 := by
  cases op <;> rfl

theorem rank_level_lt_entry (op : BinaryOp) : op.level.rank < op.rightLevel.entry := by
  cases op <;> decide

theorem entry_level (op : BinaryOp) : op.level.entry = op.level.rank := by
  cases op <;> rfl

def ofToken? : Token → Option BinaryOp
  | .keyword .and => some .and
  | .keyword .or => some .or
  | .symbol .eq => some .eq
  | .symbol .ne => some .ne
  | .symbol .lt => some .lt
  | .symbol .gt => some .gt
  | .symbol .le => some .le
  | .symbol .ge => some .ge
  | .symbol .plus => some .add
  | .symbol .minus => some .sub
  | .symbol .times => some .mul
  | .symbol .divide => some .div
  | .symbol .percent => some .mod
  | _ => none

end BinaryOp

namespace Operation

inductive Category where
  | expression (level : Level)
  /-- An expression with IN whose list of values goes on. -/
  | openList

def notWords (negated : Bool) : List Token := if negated then [.keyword .not] else []

/--
What can be of a category: tokens, with the names of the parameters whose places are among them, and
the tree of the expression that they make. A name that stands alone is that of a column of `home`.
-/
inductive Derives (home : Alias) : Category → List Token → List String → Operation → Prop where
  | column {a : Alias} {name : String} :
      Derives home (.expression .primary) (Token.column a name) [] (.column a name)
  | name {name : String} :
      Derives home (.expression .primary) [.ident name] [] (.column home name)
  | literal {t : Token} {value : Literal} (ht : t.literal? = some value) :
      Derives home (.expression .primary) [t] [] (.literal value)
  | param {name : String} : Derives home (.expression .primary) [.param] [name] (.param name)
  | parens {ts : List Token} {ps : List String} {e : Operation}
      (h : Derives home (.expression .disjunction) ts ps e) :
      Derives home (.expression .primary) (Token.parens ts) ps e
  | neg {ts : List Token} {ps : List String} {e : Operation}
      (h : Derives home (.expression .sign) ts ps e) :
      Derives home (.expression .sign) (.symbol .minus :: ts) ps (.unary .neg e)
  | not {ts : List Token} {ps : List String} {e : Operation}
      (h : Derives home (.expression .negation) ts ps e) :
      Derives home (.expression .negation) (.keyword .not :: ts) ps (.unary .not e)
  | binary {op : BinaryOp} {ts us : List Token} {ps qs : List String} {l r : Operation}
      (hl : Derives home (.expression op.level) ts ps l)
      (hr : Derives home (.expression op.rightLevel) us qs r) :
      Derives home (.expression op.level) (ts ++ op.token :: us) (ps ++ qs) (.binary op l r)
  | isNull {ts : List Token} {ps : List String} {e : Operation} (negated : Bool)
      (h : Derives home (.expression .comparison) ts ps e) :
      Derives home (.expression .comparison) (ts ++ [.nullTest negated]) ps (.isNull e negated)
  | like {ts us : List Token} {ps qs : List String} {e pattern : Operation} (negated : Bool)
      (h : Derives home (.expression .comparison) ts ps e)
      (hpattern : Derives home (.expression .sum) us qs pattern) :
      Derives home (.expression .comparison) (ts ++ notWords negated ++ .keyword .like :: us)
        (ps ++ qs) (.like e pattern none negated)
  | likeEscape {ts us : List Token} {ps qs : List String} {e pattern : Operation} (c : Char)
      (negated : Bool) (h : Derives home (.expression .comparison) ts ps e)
      (hpattern : Derives home (.expression .sum) us qs pattern) :
      Derives home (.expression .comparison)
        (ts ++ notWords negated ++ .keyword .like :: (us ++ [.keyword .escape, .string c.toString]))
        (ps ++ qs) (.like e pattern (some c) negated)
  | inNothing {ts : List Token} {ps : List String} {e : Operation} (negated : Bool)
      (h : Derives home (.expression .comparison) ts ps e) :
      Derives home (.expression .comparison)
        (ts ++ notWords negated ++ .keyword .in_ :: Token.parens []) ps (.inList e [] negated)
  | inFirst {ts us : List Token} {ps qs : List String} {e v : Operation} (negated : Bool)
      (h : Derives home (.expression .comparison) ts ps e)
      (hv : Derives home (.expression .disjunction) us qs v) :
      Derives home .openList
        (ts ++ notWords negated ++ .keyword .in_ :: .symbol .lparen :: us) (ps ++ qs)
        (.inList e [v] negated)
  | inNext {ts us : List Token} {ps qs : List String} {e v : Operation} {vs : List Operation}
      {negated : Bool} (h : Derives home .openList ts ps (.inList e vs negated))
      (hv : Derives home (.expression .disjunction) us qs v) :
      Derives home .openList (ts ++ .symbol .comma :: us) (ps ++ qs)
        (.inList e (vs ++ [v]) negated)
  | inLast {ts : List Token} {ps : List String} {e : Operation}
      (h : Derives home .openList ts ps e) :
      Derives home (.expression .comparison) (ts ++ [.symbol .rparen]) ps e
  /-- What holds together more tightly than needed. -/
  | loosen {level tighter : Level} {ts : List Token} {ps : List String} {e : Operation}
      (hrank : level.rank ≤ tighter.rank) (h : Derives home (.expression tighter) ts ps e) :
      Derives home (.expression level) ts ps e

/--
A fragment is the text of an expression.
-/
def Parses (home : Alias) (f : Fragment) (e : Operation) : Prop :=
  Derives home (.expression .disjunction) f.words f.params e

/-! ## Reading -/

inductive Pending where
  | operator (op : BinaryOp) (left : Operation)
  | not
  | neg
  | like (operand : Operation) (negated : Bool)
  | value (operand : Operation) (before : List Operation) (negated : Bool)
  | parens

namespace Pending

def rank : Pending → Nat
  | .operator op _ => op.level.rank
  | .not => Level.negation.rank
  | .neg => Level.sign.rank
  | .like .. => Level.comparison.rank
  | .value .. | .parens => 0

theorem rank_like_lt {operand : Operation} {negated : Bool}
    : (like operand negated).rank < Level.sum.rank :=
  Nat.lt_succ_self _

theorem rank_value_lt {operand : Operation} {before : List Operation} {negated : Bool}
    : (value operand before negated).rank < Level.disjunction.rank :=
  Nat.zero_lt_one

theorem head_lt {f : Pending} {rank : Nat} {stack : List Pending} (h : f.rank < rank)
    : ∀ g ∈ (f :: stack).head?, g.rank < rank := by
  intro g hg
  cases hg
  exact h

def fill (e : Operation) : Pending → Operation
  | .operator op left => .binary op left e
  | .not => .unary .not e
  | .neg => .unary .neg e
  | .like operand negated => .like operand e none negated
  | .value operand before negated => .inList operand (before ++ [e]) negated
  | .parens => e

def collapse (rank : Nat) : List Pending → Operation → List Pending × Operation
  | [], e => ([], e)
  | f :: stack, e => if rank ≤ f.rank then collapse rank stack (f.fill e) else (f :: stack, e)

theorem collapse_append {rank : Nat} {frames stack : List Pending}
    (hframes : ∀ f ∈ frames, rank ≤ f.rank) (hstack : ∀ f ∈ stack.head?, f.rank < rank)
    (e : Operation) : collapse rank (frames ++ stack) e = (stack, frames.foldl fill e) := by
  induction frames generalizing e with
  | nil =>
    cases stack with
    | nil => rfl
    | cons f stack => exact if_neg (Nat.not_le.mpr (hstack f rfl))
  | cons f frames ih =>
    rw [List.cons_append, collapse, if_pos (hframes f List.mem_cons_self), List.foldl_cons]
    exact ih (fun f hf => hframes f (List.mem_cons_of_mem _ hf)) _

end Pending

inductive Cursor where
  /-- Before an operand. -/
  | operand
  /-- After the alias of a table, before the dot. -/
  | dot (table : Alias)
  /-- After the dot. -/
  | name (table : Alias)
  /-- After an operand. -/
  | complete (e : Operation)
  /-- After an operand and NOT. -/
  | negated (e : Operation)
  /-- After IN. -/
  | list (e : Operation) (negated : Bool)
  /-- Before the first value of a list. -/
  | firstValue (e : Operation) (negated : Bool)
  /-- After ESCAPE. -/
  | escape (e pattern : Operation) (negated : Bool)

structure Reader where
  /-- The names of the parameters whose places are still to come. -/
  params : List String
  stack : List Pending := []
  cursor : Cursor := .operand

namespace Reader

def stepOperand (home : Alias) (r : Reader) (t : Token) : Option Reader :=
  match t, r.params with
  | .keyword .not, _ => some { r with stack := .not :: r.stack, cursor := .operand }
  | .symbol .minus, _ => some { r with stack := .neg :: r.stack, cursor := .operand }
  | .symbol .lparen, _ => some { r with stack := .parens :: r.stack, cursor := .operand }
  | .tableAlias a, _ => some { r with cursor := .dot a }
  | .ident name, _ => some { r with cursor := .complete (.column home name) }
  | .param, name :: params => some { r with params, cursor := .complete (.param name) }
  | t, _ => t.literal?.map fun value => { r with cursor := .complete (.literal value) }

def stepLike (r : Reader) (e : Operation) (negated : Bool) : Reader :=
  let (stack, e) := Pending.collapse Level.comparison.rank r.stack e
  { r with stack := .like e negated :: stack, cursor := .operand }

def stepIn (r : Reader) (e : Operation) (negated : Bool) : Reader :=
  let (stack, e) := Pending.collapse Level.comparison.rank r.stack e
  { r with stack, cursor := .list e negated }

def stepNull (r : Reader) (e : Operation) (negated : Bool) : Reader :=
  let (stack, e) := Pending.collapse Level.comparison.rank r.stack e
  { r with stack, cursor := .complete (.isNull e negated) }

def stepOperator (r : Reader) (e : Operation) (op : BinaryOp) : Reader :=
  let (stack, e) := Pending.collapse op.level.rank r.stack e
  { r with stack := .operator op e :: stack, cursor := .operand }

def stepEscape (r : Reader) : List Pending × Operation → Option Reader
  | (.like operand negated :: stack, pattern) =>
    some { r with stack, cursor := .escape operand pattern negated }
  | _ => none

def stepComma (r : Reader) : List Pending × Operation → Option Reader
  | (.value operand before negated :: stack, e) =>
    some { r with stack := .value operand (before ++ [e]) negated :: stack, cursor := .operand }
  | _ => none

def stepRparen (r : Reader) : List Pending × Operation → Option Reader
  | (.parens :: stack, e) => some { r with stack, cursor := .complete e }
  | (.value operand before negated :: stack, e) =>
    some { r with stack, cursor := .complete (.inList operand (before ++ [e]) negated) }
  | _ => none

def step (home : Alias) (r : Reader) (t : Token) : Option Reader :=
  match r.cursor with
  | .operand => r.stepOperand home t
  | .dot a => if t = .symbol .dot then some { r with cursor := .name a } else none
  | .name a =>
    match t with
    | .ident name => some { r with cursor := .complete (.column a name) }
    | _ => none
  | .complete e =>
    match BinaryOp.ofToken? t, t with
    | some op, _ => some (r.stepOperator e op)
    | none, .keyword .isNull => some (r.stepNull e false)
    | none, .keyword .isNotNull => some (r.stepNull e true)
    | none, .keyword .not => some { r with cursor := .negated e }
    | none, .keyword .like => some (r.stepLike e false)
    | none, .keyword .in_ => some (r.stepIn e false)
    | none, .keyword .escape => r.stepEscape (Pending.collapse Level.sum.rank r.stack e)
    | none, .symbol .comma => r.stepComma (Pending.collapse Level.disjunction.rank r.stack e)
    | none, .symbol .rparen => r.stepRparen (Pending.collapse Level.disjunction.rank r.stack e)
    | none, _ => none
  | .negated e =>
    match t with
    | .keyword .like => some (r.stepLike e true)
    | .keyword .in_ => some (r.stepIn e true)
    | _ => none
  | .list e negated =>
    if t = .symbol .lparen then some { r with cursor := .firstValue e negated } else none
  | .firstValue e negated =>
    if t = .symbol .rparen then
      some { r with cursor := .complete (.inList e [] negated) }
    else
      stepOperand home { r with stack := .value e [] negated :: r.stack, cursor := .operand } t
  | .escape e pattern negated =>
    match t with
    | .string s =>
      match s.toList with
      | [c] => some { r with cursor := .complete (.like e pattern (some c) negated) }
      | _ => none
    | _ => none

def read (home : Alias) (ts : List Token) (r : Reader) : Option Reader := ts.foldlM (step home) r

def finish (r : Reader) : Option Operation :=
  match r.cursor, r.params with
  | .complete e, [] =>
    match Pending.collapse Level.disjunction.rank r.stack e with
    | ([], e) => some e
    | _ => none
  | _, _ => none

end Reader

def parse? (home : Alias) (f : Fragment) : Option Operation :=
  (Reader.read home f.words { params := f.params }).bind Reader.finish

namespace Reader

variable {home : Alias} {ps : List String} {frames stack : List Pending} {e : Operation}

theorem read_append (ts us : List Token) (r : Reader)
    : r.read home (ts ++ us) = (r.read home ts).bind (read home us) :=
  List.foldlM_append

theorem read_cons (t : Token) (ts : List Token) (r : Reader)
    : r.read home (t :: ts) = (r.step home t).bind (read home ts) :=
  List.foldlM_cons

theorem step_literal {t : Token} {value : Literal} (ht : t.literal? = some value)
    : step home ⟨ps, stack, .operand⟩ t = some ⟨ps, stack, .complete (.literal value)⟩ := by
  cases t with
  | keyword word =>
    cases word <;> cases ht
    rfl
  | int | float | string | bool =>
    cases ht
    rfl
  | _ => cases ht

/-! After an operand, what has been read since the stack was there is filled first. -/

theorem step_operator (op : BinaryOp) (hframes : ∀ f ∈ frames, op.level.rank ≤ f.rank)
    (hstack : ∀ f ∈ stack.head?, f.rank < op.level.rank)
    : step home ⟨ps, frames ++ stack, .complete e⟩ op.token
        =
      some ⟨ps, .operator op (frames.foldl Pending.fill e) :: stack, .operand⟩ := by
  have hstep : step home ⟨ps, frames ++ stack, .complete e⟩ op.token
      = some (stepOperator ⟨ps, frames ++ stack, .complete e⟩ e op) := by
    cases op <;> rfl
  rw [hstep, stepOperator]
  simp only [Pending.collapse_append hframes hstack]

section Comparison

variable (hframes : ∀ f ∈ frames, Level.comparison.rank ≤ f.rank)
  (hstack : ∀ f ∈ stack.head?, f.rank < Level.comparison.rank) (negated : Bool)

include hframes hstack

theorem step_nullTest
    : step home ⟨ps, frames ++ stack, .complete e⟩ (.nullTest negated)
        =
      some ⟨ps, stack, .complete (.isNull (frames.foldl Pending.fill e) negated)⟩ := by
  have hstep : step home ⟨ps, frames ++ stack, .complete e⟩ (.nullTest negated)
      = some (stepNull ⟨ps, frames ++ stack, .complete e⟩ e negated) := by
    cases negated <;> rfl
  rw [hstep, stepNull]
  simp only [Pending.collapse_append hframes hstack]

theorem read_like
    : read home (notWords negated ++ [.keyword .like]) ⟨ps, frames ++ stack, .complete e⟩
        =
      some ⟨ps, .like (frames.foldl Pending.fill e) negated :: stack, .operand⟩ := by
  have hread : read home (notWords negated ++ [.keyword .like]) ⟨ps, frames ++ stack, .complete e⟩
      = some (stepLike ⟨ps, frames ++ stack, .complete e⟩ e negated) := by
    cases negated <;> rfl
  rw [hread, stepLike]
  simp only [Pending.collapse_append hframes hstack]

theorem read_in
    : read home (notWords negated ++ [.keyword .in_, .symbol .lparen])
        ⟨ps, frames ++ stack, .complete e⟩
        =
      some ⟨ps, stack, .firstValue (frames.foldl Pending.fill e) negated⟩ := by
  have hread : read home (notWords negated ++ [.keyword .in_, .symbol .lparen])
      ⟨ps, frames ++ stack, .complete e⟩
        = read home [.symbol .lparen] (stepIn ⟨ps, frames ++ stack, .complete e⟩ e negated) := by
    cases negated <;> rfl
  rw [hread, stepIn]
  simp only [Pending.collapse_append hframes hstack]
  rfl

end Comparison

theorem read_escape {operand : Operation} {negated : Bool} (c : Char)
    (hframes : ∀ f ∈ frames, Level.sum.rank ≤ f.rank)
    : read home [.keyword .escape, .string c.toString]
        ⟨ps, frames ++ .like operand negated :: stack, .complete e⟩
        =
      some ⟨ps, stack,
        .complete (.like operand (frames.foldl Pending.fill e) (some c) negated)⟩ := by
  have hstep : step home ⟨ps, frames ++ .like operand negated :: stack, .complete e⟩
      (.keyword .escape)
        = some ⟨ps, stack, .escape operand (frames.foldl Pending.fill e) negated⟩ := by
    change stepEscape _ (Pending.collapse Level.sum.rank _ e) = _
    rw [Pending.collapse_append hframes (Pending.head_lt Pending.rank_like_lt)]
    rfl
  rw [read_cons, hstep, Option.bind_some, read_cons]
  simp [step, read]

section Parentheses

variable (hframes : ∀ f ∈ frames, Level.disjunction.rank ≤ f.rank)

include hframes

theorem step_rparen
    : step home ⟨ps, frames ++ .parens :: stack, .complete e⟩ (.symbol .rparen)
        =
      some ⟨ps, stack, .complete (frames.foldl Pending.fill e)⟩ := by
  change stepRparen _ (Pending.collapse Level.disjunction.rank _ e) = _
  rw [Pending.collapse_append hframes (Pending.head_lt (by decide))]
  rfl

variable (operand : Operation) (before : List Operation) (negated : Bool)

theorem step_rparen_value
    : step home ⟨ps, frames ++ .value operand before negated :: stack, .complete e⟩
        (.symbol .rparen)
        =
      some ⟨ps, stack,
        .complete (.inList operand (before ++ [frames.foldl Pending.fill e]) negated)⟩ := by
  change stepRparen _ (Pending.collapse Level.disjunction.rank _ e) = _
  rw [Pending.collapse_append hframes (Pending.head_lt Pending.rank_value_lt)]
  rfl

theorem step_comma
    : step home ⟨ps, frames ++ .value operand before negated :: stack, .complete e⟩
        (.symbol .comma)
        =
      some ⟨ps, .value operand (before ++ [frames.foldl Pending.fill e]) negated :: stack,
        .operand⟩ := by
  change stepComma _ (Pending.collapse Level.disjunction.rank _ e) = _
  rw [Pending.collapse_append hframes (Pending.head_lt Pending.rank_value_lt)]
  rfl

end Parentheses

theorem read_firstValue {ts : List Token} {r : Reader} {negated : Bool}
    (h : read home ts ⟨ps, .value e [] negated :: stack, .operand⟩ = some r)
    (hcursor : r.cursor ≠ .operand)
    : read home ts ⟨ps, stack, .firstValue e negated⟩ = some r := by
  cases ts with
  | nil =>
    cases h
    exact absurd rfl hcursor
  | cons t ts =>
    rw [read_cons] at h ⊢
    have ht : t ≠ .symbol .rparen := by
      rintro rfl
      cases h
    change (if t = .symbol .rparen then _ else _ : Option Reader).bind _ = _
    rw [if_neg ht]
    exact h

end Reader

def Category.IsRead (home : Alias) (ts : List Token) (ps : List String) (e : Operation) :
    Category → Prop
  | .expression level =>
    ∀ stack qs, (∀ f ∈ stack.head?, f.rank < level.entry) →
      ∃ frames d, Reader.read home ts ⟨ps ++ qs, stack, .operand⟩
          = some ⟨qs, frames ++ stack, .complete d⟩
        ∧ (∀ f ∈ frames, level.rank ≤ f.rank) ∧ frames.foldl Pending.fill d = e
  | .openList =>
    ∀ stack qs, (∀ f ∈ stack.head?, f.rank < Level.comparison.rank) →
      ∃ frames d operand before negated, Reader.read home ts ⟨ps ++ qs, stack, .operand⟩
          = some ⟨qs, frames ++ .value operand before negated :: stack, .complete d⟩
        ∧ (∀ f ∈ frames, Level.disjunction.rank ≤ f.rank)
        ∧ .inList operand (before ++ [frames.foldl Pending.fill d]) negated = e

namespace Category.IsRead

variable {home : Alias} {ts us : List Token} {ps qs : List String} {e e' : Operation}
  {level inner : Level}

theorem pending (h : (expression inner).IsRead home ts ps e) {f : Pending}
    (hentry : f.rank < inner.entry) (hf : level.rank ≤ f.rank) (hinner : level.rank ≤ inner.rank)
    (stack : List Pending) (params : List String)
    : ∃ frames d, Reader.read home ts ⟨ps ++ params, f :: stack, .operand⟩
          = some ⟨params, frames ++ stack, .complete d⟩
        ∧ (∀ g ∈ frames, level.rank ≤ g.rank) ∧ frames.foldl Pending.fill d = f.fill e := by
  obtain ⟨frames, d, hread, hframes, rfl⟩ := h (f :: stack) params (Pending.head_lt hentry)
  refine ⟨frames ++ [f], d, ?_, ?_, ?_⟩
  · rw [hread, List.append_cons]
  · intro g hg
    obtain hg | hg := List.mem_append.mp hg
    · exact Nat.le_trans hinner (hframes g hg)
    · exact List.mem_singleton.mp hg ▸ hf
  · rw [List.foldl_append]
    rfl

theorem literal {t : Token} {value : Literal} (ht : t.literal? = some value)
    : (expression .primary).IsRead home [t] [] (.literal value) := by
  intro stack qs _
  refine ⟨[], _, ?_, by simp, rfl⟩
  rw [Reader.read_cons, List.nil_append, Reader.step_literal ht]
  rfl

theorem parens (h : (expression .disjunction).IsRead home ts ps e)
    : (expression .primary).IsRead home (Token.parens ts) ps e := by
  intro stack qs _
  obtain ⟨frames, d, hread, hframes, rfl⟩ := h (.parens :: stack) qs (Pending.head_lt (by decide))
  refine ⟨[], _, ?_, by simp, rfl⟩
  change Reader.read home (ts ++ [.symbol .rparen]) ⟨ps ++ qs, .parens :: stack, .operand⟩ = _
  rw [Reader.read_append, hread, Option.bind_some, Reader.read_cons, Reader.step_rparen hframes]
  rfl

theorem neg (h : (expression .sign).IsRead home ts ps e)
    : (expression .sign).IsRead home (.symbol .minus :: ts) ps (.unary .neg e) := by
  intro stack qs _
  exact h.pending (f := .neg) (by decide) (by decide) (by decide) stack qs

theorem not (h : (expression .negation).IsRead home ts ps e)
    : (expression .negation).IsRead home (.keyword .not :: ts) ps (.unary .not e) := by
  intro stack qs _
  exact h.pending (f := .not) (by decide) (by decide) (by decide) stack qs

theorem binary {op : BinaryOp} (hl : (expression op.level).IsRead home ts ps e)
    (hr : (expression op.rightLevel).IsRead home us qs e')
    : (expression op.level).IsRead home (ts ++ op.token :: us) (ps ++ qs) (.binary op e e') := by
  intro stack params hstack
  obtain ⟨frames, d, hread, hframes, rfl⟩ := hl stack (qs ++ params) hstack
  rw [BinaryOp.entry_level] at hstack
  rw [List.append_assoc, Reader.read_append, hread, Option.bind_some, Reader.read_cons,
    Reader.step_operator op hframes hstack]
  apply hr.pending (f := .operator op _) op.rank_level_lt_entry (Nat.le_refl _)
  rw [op.rank_rightLevel]
  exact Nat.le_succ _

section Comparison

variable (h : (expression .comparison).IsRead home ts ps e)

include h

theorem isNull (negated : Bool)
    : (expression .comparison).IsRead home (ts ++ [.nullTest negated]) ps (.isNull e negated) := by
  intro stack qs hstack
  obtain ⟨frames, d, hread, hframes, rfl⟩ := h stack qs hstack
  refine ⟨[], _, ?_, by simp, rfl⟩
  rw [Reader.read_append, hread, Option.bind_some, Reader.read_cons,
    Reader.step_nullTest hframes hstack]
  rfl

theorem read_like (negated : Bool) (us : List Token) (params : List String) {stack : List Pending}
    (hstack : ∀ f ∈ stack.head?, f.rank < Level.comparison.rank)
    : Reader.read home (ts ++ notWords negated ++ .keyword .like :: us)
          ⟨ps ++ params, stack, .operand⟩
        =
      Reader.read home us ⟨params, .like e negated :: stack, .operand⟩ := by
  obtain ⟨frames, d, hread, hframes, rfl⟩ := h stack params hstack
  rw [List.append_cons, List.append_assoc ts, Reader.read_append, Reader.read_append, hread,
    Option.bind_some, Reader.read_like hframes hstack, Option.bind_some]

theorem read_in (negated : Bool) (us : List Token) (params : List String) {stack : List Pending}
    (hstack : ∀ f ∈ stack.head?, f.rank < Level.comparison.rank)
    : Reader.read home (ts ++ notWords negated ++ .keyword .in_ :: .symbol .lparen :: us)
          ⟨ps ++ params, stack, .operand⟩
        =
      Reader.read home us ⟨params, stack, .firstValue e negated⟩ := by
  obtain ⟨frames, d, hread, hframes, rfl⟩ := h stack params hstack
  have htokens : ts ++ notWords negated ++ .keyword .in_ :: .symbol .lparen :: us
      = ts ++ (notWords negated ++ [.keyword .in_, .symbol .lparen]) ++ us := by
    simp
  rw [htokens, Reader.read_append, Reader.read_append, hread, Option.bind_some,
    Reader.read_in hframes hstack, Option.bind_some]

theorem like (hpattern : (expression .sum).IsRead home us qs e') (negated : Bool)
    : (expression .comparison).IsRead home (ts ++ notWords negated ++ .keyword .like :: us)
        (ps ++ qs) (.like e e' none negated) := by
  intro stack params hstack
  rw [List.append_assoc ps, h.read_like negated us _ hstack]
  exact hpattern.pending Pending.rank_like_lt (Nat.le_refl _) (by decide) stack params

theorem likeEscape (hpattern : (expression .sum).IsRead home us qs e') (c : Char) (negated : Bool)
    : (expression .comparison).IsRead home
        (ts ++ notWords negated ++ .keyword .like :: (us ++ [.keyword .escape, .string c.toString]))
        (ps ++ qs) (.like e e' (some c) negated) := by
  intro stack params hstack
  obtain ⟨frames, d, hread, hframes, rfl⟩ :=
    hpattern (.like e negated :: stack) params (Pending.head_lt Pending.rank_like_lt)
  refine ⟨[], _, ?_, by simp, rfl⟩
  rw [List.append_assoc ps, h.read_like negated _ _ hstack, Reader.read_append, hread,
    Option.bind_some, Reader.read_escape c hframes]
  rfl

theorem inNothing (negated : Bool)
    : (expression .comparison).IsRead home
        (ts ++ notWords negated ++ .keyword .in_ :: Token.parens []) ps (.inList e [] negated) := by
  intro stack qs hstack
  refine ⟨[], _, ?_, by simp, rfl⟩
  exact h.read_in negated [.symbol .rparen] qs hstack

theorem inFirst (hv : (expression .disjunction).IsRead home us qs e') (negated : Bool)
    : openList.IsRead home (ts ++ notWords negated ++ .keyword .in_ :: .symbol .lparen :: us)
        (ps ++ qs) (.inList e [e'] negated) := by
  intro stack params hstack
  obtain ⟨frames, d, hread, hframes, rfl⟩ :=
    hv (.value e [] negated :: stack) params (Pending.head_lt Pending.rank_value_lt)
  refine ⟨frames, d, e, [], negated, ?_, hframes, rfl⟩
  rw [List.append_assoc ps, h.read_in negated us _ hstack]
  exact Reader.read_firstValue hread (by simp)

end Comparison

theorem inNext {vs : List Operation} {negated : Bool}
    (h : openList.IsRead home ts ps (.inList e vs negated))
    (hv : (expression .disjunction).IsRead home us qs e')
    : openList.IsRead home (ts ++ .symbol .comma :: us) (ps ++ qs)
        (.inList e (vs ++ [e']) negated) := by
  intro stack params hstack
  obtain ⟨frames, d, operand, before, negated', hread, hframes, heq⟩ :=
    h stack (qs ++ params) hstack
  obtain ⟨rfl, rfl, rfl⟩ := inList.inj heq
  obtain ⟨frames', d', hread', hframes', rfl⟩ :=
    hv (.value operand (before ++ [frames.foldl Pending.fill d]) negated' :: stack) params
      (Pending.head_lt Pending.rank_value_lt)
  refine ⟨frames', d', _, _, _, ?_, hframes', rfl⟩
  rw [Reader.read_append, List.append_assoc ps, hread, Option.bind_some, Reader.read_cons,
    Reader.step_comma hframes]
  exact hread'

theorem inLast (h : openList.IsRead home ts ps e)
    : (expression .comparison).IsRead home (ts ++ [.symbol .rparen]) ps e := by
  intro stack qs hstack
  obtain ⟨frames, d, operand, before, negated, hread, hframes, rfl⟩ := h stack qs hstack
  refine ⟨[], _, ?_, by simp, rfl⟩
  rw [Reader.read_append, hread, Option.bind_some, Reader.read_cons,
    Reader.step_rparen_value hframes]
  rfl

theorem loosen (hrank : level.rank ≤ inner.rank) (h : (expression inner).IsRead home ts ps e)
    : (expression level).IsRead home ts ps e := by
  intro stack qs hstack
  obtain ⟨frames, d, hread, hframes, hd⟩ := h stack qs
    fun f hf => Nat.lt_of_lt_of_le (hstack f hf) (Level.entry_le hrank)
  exact ⟨frames, d, hread, fun f hf => Nat.le_trans hrank (hframes f hf), hd⟩

end Category.IsRead

theorem Derives.isRead {home : Alias} {category : Category} {ts : List Token} {ps : List String}
    {e : Operation} (h : Derives home category ts ps e) : category.IsRead home ts ps e := by
  induction h with
  | column => exact fun stack qs _ => ⟨[], _, rfl, by simp, rfl⟩
  | name => exact fun stack qs _ => ⟨[], _, rfl, by simp, rfl⟩
  | literal ht => exact .literal ht
  | param => exact fun stack qs _ => ⟨[], _, rfl, by simp, rfl⟩
  | parens _ ih => exact ih.parens
  | neg _ ih => exact ih.neg
  | not _ ih => exact ih.not
  | binary _ _ ihl ihr => exact ihl.binary ihr
  | isNull negated _ ih => exact ih.isNull negated
  | like negated _ _ ih ihpattern => exact ih.like ihpattern negated
  | likeEscape c negated _ _ ih ihpattern => exact ih.likeEscape ihpattern c negated
  | inNothing negated _ ih => exact ih.inNothing negated
  | inFirst negated _ _ ih ihv => exact ih.inFirst ihv negated
  | inNext _ _ ih ihv => exact ih.inNext ihv
  | inLast _ ih => exact ih.inLast
  | loosen hrank _ ih => exact ih.loosen hrank

/--
The reader finds what can be derived.
-/
theorem Parses.parse?_eq {home : Alias} {f : Fragment} {e : Operation} (h : Parses home f e)
    : parse? home f = some e := by
  obtain ⟨frames, d, hread, hframes, rfl⟩ := Derives.isRead h [] [] (by simp)
  rw [List.append_nil] at hread
  rw [parse?, hread, Option.bind_some, Reader.finish]
  dsimp only
  rw [Pending.collapse_append hframes (by simp)]

theorem Parses.unique {home : Alias} {f : Fragment} {d e : Operation} (hd : Parses home f d)
    (he : Parses home f e) : d = e :=
  Option.some.inj (hd.parse?_eq.symm.trans he.parse?_eq)

end Operation

end SqlDialect
