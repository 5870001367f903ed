import SqlDialect.Expr.Basic
import SqlDialect.Expr.Fragment
import SqlDialect.Text.Template

/-!
This module contains the rendering of expressions in a dialect. Operands are put in parentheses
where their operator binds less tightly than the one around it.
-/

namespace SqlDialect

structure RenderContext where
  profile : Profile
  /-- Write the alias of the table before the name of a column. -/
  qualify : Bool := true
  /-- The text of a nested select. -/
  subselect : ScopeId → Compile Rendered := fun scope => .error (.aliasing (.noRenderer scope))

/--
The token of a literal. Infinite floats and NaNs have none.
-/
def Literal.token : Literal → Compile Token
  | .int n => .ok (.int n)
  | .float x => if x.isFinite then .ok (.float x) else .error (.nonFiniteLiteral x)
  | .text s => .ok (.string s)
  | .bool b => .ok (.bool b)
  | .null => .ok (.keyword .null)

namespace Expr

/--
How tightly an expression holds together when it is an operand. An atom cannot be torn apart, and
raw text never holds together.
-/
def precedence : Expr → Nat
  | .binary op _ _ => op.precedence
  | .isNull .. | .like .. | .inList .. | .inSelect .. => 3
  | .unary .not _ | .existsIn _ true => 2
  | .raw _ => 0
  | _ => 6

def fillTemplate (template : String) (args : List Rendered) : Fragment :=
  ⟨[.raw (Template.fill template (args.map (·.sql)))], args.flatMap (·.params)⟩

def callByName (name : String) (args : List Rendered) : Fragment :=
  ⟨[.raw (name ++ "(" ++ ", ".intercalate (args.map (·.sql)) ++ ")")], args.flatMap (·.params)⟩

def negation (negated : Bool) : List Token := if negated then [.keyword .not, .space] else []

def textTemplate (f : Functions) : TextFunction → String
  | .lower => f.toLower
  | .upper => f.toUpper
  | .length => f.stringLength

def trimTemplate (f : Functions) : TrimSide → String
  | .leading => f.trimLeading
  | .trailing => f.trimTrailing
  | .both => f.trimBoth

def clockText (f : Functions) : ClockFunction → String
  | .date => f.currentDate
  | .time => f.currentTime
  | .timestamp => f.currentTimestamp

mutual

def fragment (ctx : RenderContext) : Expr → Compile Fragment
  | .column a name =>
    return .ofTokens (if ctx.qualify then Token.column a name else [.ident name])
  | .literal value => return .ofTokens [← value.token]
  | .param name => return .ofParam name
  | .binary op left right => do
    let l ← left.fragment ctx
    let r ← right.fragment ctx
    if op = .mod ∧ ¬ ctx.profile.supports .modOperator then
      return fillTemplate ctx.profile.functions.modulo
        [← l.serialize ctx.profile, ← r.serialize ctx.profile]
    let prec := op.precedence
    return l.parensIf (left.precedence < prec)
      ++ .ofTokens [.space, op.token, .space]
      ++ r.parensIf (right.precedence < prec || right.precedence == prec && !op.isAssociative)
  | .unary op operand => do
    let inner ← operand.fragment ctx
    let sign :=
      match op with
      | .not => [.keyword .not, .space]
      | .neg => [.symbol .minus]
    return .ofTokens sign ++ inner.parensIf (operand.precedence < 6)
  | .isNull operand negated => do
    let inner ← operand.fragment ctx
    return inner.parensIf (operand.precedence ≤ 3)
      ++ .ofTokens [.space, .keyword (if negated then .isNotNull else .isNull)]
  | .like operand pattern escape negated => do
    let inner ← operand.fragment ctx
    let pattern ← pattern.fragment ctx
    let escape :=
      match escape with
      | some c => [.space, .keyword .escape, .space, .string c.toString]
      | none => []
    return inner ++ .ofTokens (.space :: negation negated ++ [.keyword .like, .space])
      ++ pattern ++ .ofTokens escape
  | .inList operand values negated => do
    let inner ← operand.fragment ctx
    let values ← fragments ctx values
    return inner ++ .ofTokens (.space :: negation negated ++ [.keyword .in_, .space])
      ++ (Fragment.commaSep values).parens
  | .existsIn scope negated => do
    let select ← ctx.subselect scope
    return .ofTokens (negation negated ++ [.keyword .exists_, .space])
      ++ (Fragment.ofRendered select).parens
  | .inSelect operand scope negated => do
    let inner ← operand.fragment ctx
    let select ← ctx.subselect scope
    return inner ++ .ofTokens (.space :: negation negated ++ [.keyword .in_, .space])
      ++ (Fragment.ofRendered select).parens
  | .cast operand typeName => do
    let e ← operand.fragment ctx
    return fillTemplate ctx.profile.functions.cast [← e.serialize ctx.profile, ⟨typeName, []⟩]
  | .textFunction f operand => do
    let e ← operand.fragment ctx
    return fillTemplate (textTemplate ctx.profile.functions f) [← e.serialize ctx.profile]
  | .trim operand chars side => do
    let e ← operand.fragment ctx
    let c ← chars.fragment ctx
    return fillTemplate (trimTemplate ctx.profile.functions side)
      [← e.serialize ctx.profile, ← c.serialize ctx.profile]
  | .concat left right => do
    let l ← left.fragment ctx
    let r ← right.fragment ctx
    return fillTemplate ctx.profile.functions.concatenate
      [← l.serialize ctx.profile, ← r.serialize ctx.profile]
  | .suffix operand start => do
    let e ← operand.fragment ctx
    let s ← start.fragment ctx
    return callByName ctx.profile.functions.substring
      [← e.serialize ctx.profile, ← s.serialize ctx.profile]
  | .substring operand start length => do
    let e ← operand.fragment ctx
    let s ← start.fragment ctx
    let l ← length.fragment ctx
    return callByName ctx.profile.functions.substring
      [← e.serialize ctx.profile, ← s.serialize ctx.profile, ← l.serialize ctx.profile]
  | .indexOf haystack needle => do
    let h ← haystack.fragment ctx
    let n ← needle.fragment ctx
    return fillTemplate ctx.profile.functions.indexOf
      [← h.serialize ctx.profile, ← n.serialize ctx.profile]
  | .indexOfFrom haystack needle start => do
    let h ← haystack.fragment ctx
    let n ← needle.fragment ctx
    let s ← start.fragment ctx
    return fillTemplate ctx.profile.functions.indexOfFrom
      [← h.serialize ctx.profile, ← n.serialize ctx.profile, ← s.serialize ctx.profile]
  | .clock f => return .ofTokens [.raw (clockText ctx.profile.functions f)]
  | .aggregate f arg distinct => do
    let a ← arg.fragment ctx
    let distinct := if distinct then [.keyword .distinct, .space] else []
    return .ofTokens [.raw f.name] ++ (.ofTokens distinct ++ a : Fragment).parens
  | .aggregateRows f _ =>
    return .ofTokens (.raw f.name :: Token.parens [.symbol .star])
  | .raw sql => return .ofTokens [.raw sql]

def fragments (ctx : RenderContext) : List Expr → Compile (List Fragment)
  | [] => return []
  | e :: es => return (← e.fragment ctx) :: (← fragments ctx es)

end

def sql (e : Expr) (ctx : RenderContext) : Compile Rendered := do
  (← e.fragment ctx).serialize ctx.profile

end Expr

end SqlDialect
