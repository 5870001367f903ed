import SqlDialect.Expr.Literal
import SqlDialect.Token

/-!
This module contains expressions. They are neutral to dialects: a function is named for what it
computes, and a column refers to the alias of its table.
-/

namespace SqlDialect

inductive BinaryOp where
  | eq
  | ne
  | lt
  | gt
  | le
  | ge
  | and
  | or
  | add
  | sub
  | mul
  | div
  | mod
  deriving DecidableEq, Repr

namespace BinaryOp

def precedence : BinaryOp → Nat
  | .or => 1
  | .and => 2
  | .eq | .ne | .lt | .gt | .le | .ge => 3
  | .add | .sub => 4
  | .mul | .div | .mod => 5

def isAssociative : BinaryOp → Bool
  | .and | .or | .add | .mul => true
  | _ => false

def token : BinaryOp → Token
  | .eq => .symbol .eq
  | .ne => .symbol .ne
  | .lt => .symbol .lt
  | .gt => .symbol .gt
  | .le => .symbol .le
  | .ge => .symbol .ge
  | .and => .keyword .and
  | .or => .keyword .or
  | .add => .symbol .plus
  | .sub => .symbol .minus
  | .mul => .symbol .times
  | .div => .symbol .divide
  | .mod => .symbol .percent

end BinaryOp

inductive UnaryOp where
  | not
  | neg
  deriving DecidableEq, Repr

inductive AggregateFunction where
  | count
  | sum
  | avg
  | min
  | max
  deriving DecidableEq, Repr

def AggregateFunction.name : AggregateFunction → String
  | .count => "COUNT"
  | .sum => "SUM"
  | .avg => "AVG"
  | .min => "MIN"
  | .max => "MAX"

inductive TextFunction where
  | lower
  | upper
  | length
  deriving DecidableEq, Repr

inductive TrimSide where
  | leading
  | trailing
  | both
  deriving DecidableEq, Repr

inductive ClockFunction where
  | date
  | time
  | timestamp
  deriving DecidableEq, Repr

inductive Expr where
  | column (table : Alias) (name : String)
  | literal (value : Literal)
  | param (name : String)
  | binary (op : BinaryOp) (left right : Expr)
  | unary (op : UnaryOp) (operand : Expr)
  | isNull (operand : Expr) (negated : Bool)
  | like (operand pattern : Expr) (escape : Option Char) (negated : Bool)
  | inList (operand : Expr) (values : List Expr) (negated : Bool)
  /-- Whether a nested select has rows. -/
  | existsIn (scope : ScopeId) (negated : Bool)
  /-- Whether a value is among the rows of a nested select. -/
  | inSelect (operand : Expr) (scope : ScopeId) (negated : Bool)
  | cast (operand : Expr) (typeName : String)
  | textFunction (function : TextFunction) (operand : Expr)
  | trim (operand chars : Expr) (side : TrimSide)
  | concat (left right : Expr)
  /-- The rest of a text from a position on, counted from one. -/
  | suffix (operand start : Expr)
  | substring (operand start length : Expr)
  /-- The position of a text in another, counted from one. -/
  | indexOf (haystack needle : Expr)
  | indexOfFrom (haystack needle start : Expr)
  | clock (function : ClockFunction)
  | aggregate (function : AggregateFunction) (arg : Expr) (distinct : Bool)
  /-- An aggregate over whole rows. -/
  | aggregateRows (function : AggregateFunction) (distinct : Bool)
  /-- Text that is already SQL. -/
  | raw (sql : String)

namespace Expr

mutual

def equals : Expr → Expr → Bool
  | .column a n, .column b m => a == b && n == m
  | .literal v, .literal w => v.equals w
  | .param n, .param m => n == m
  | .binary o a b, .binary p c d => o == p && a.equals c && b.equals d
  | .unary o a, .unary p b => o == p && a.equals b
  | .isNull a n, .isNull b m => a.equals b && n == m
  | .like a b e n, .like c d f m => a.equals c && b.equals d && e == f && n == m
  | .inList a vs n, .inList b ws m => a.equals b && equalsAll vs ws && n == m
  | .existsIn s n, .existsIn t m => s == t && n == m
  | .inSelect a s n, .inSelect b t m => a.equals b && s == t && n == m
  | .cast a t, .cast b u => a.equals b && t == u
  | .textFunction f a, .textFunction g b => f == g && a.equals b
  | .trim a b s, .trim c d t => a.equals c && b.equals d && s == t
  | .concat a b, .concat c d => a.equals c && b.equals d
  | .suffix a b, .suffix c d => a.equals c && b.equals d
  | .substring a b c, .substring d e f => a.equals d && b.equals e && c.equals f
  | .indexOf a b, .indexOf c d => a.equals c && b.equals d
  | .indexOfFrom a b c, .indexOfFrom d e f => a.equals d && b.equals e && c.equals f
  | .clock f, .clock g => f == g
  | .aggregate f a n, .aggregate g b m => f == g && a.equals b && n == m
  | .aggregateRows f n, .aggregateRows g m => f == g && n == m
  | .raw s, .raw t => s == t
  | _, _ => false

def equalsAll : List Expr → List Expr → Bool
  | [], [] => true
  | a :: as, b :: bs => a.equals b && equalsAll as bs
  | _, _ => false

end

mutual

def containsAggregate : Expr → Bool
  | .aggregate .. | .aggregateRows .. => true
  | .binary _ a b | .like a b _ _ | .trim a b _ | .concat a b | .suffix a b | .indexOf a b =>
    a.containsAggregate || b.containsAggregate
  | .unary _ a | .isNull a _ | .inSelect a _ _ | .cast a _ | .textFunction _ a =>
    a.containsAggregate
  | .inList a vs _ => a.containsAggregate || anyContainsAggregate vs
  | .substring a b c | .indexOfFrom a b c =>
    a.containsAggregate || b.containsAggregate || c.containsAggregate
  | .column .. | .literal _ | .param _ | .existsIn .. | .clock _ | .raw _ => false

def anyContainsAggregate : List Expr → Bool
  | [] => false
  | a :: as => a.containsAggregate || anyContainsAggregate as

end

mutual

def columnAliases : Expr → List Alias
  | .column a _ => [a]
  | .binary _ a b | .like a b _ _ | .trim a b _ | .concat a b | .suffix a b | .indexOf a b =>
    a.columnAliases ++ b.columnAliases
  | .unary _ a | .isNull a _ | .inSelect a _ _ | .cast a _ | .textFunction _ a
  | .aggregate _ a _ => a.columnAliases
  | .inList a vs _ => a.columnAliases ++ allColumnAliases vs
  | .substring a b c | .indexOfFrom a b c =>
    a.columnAliases ++ b.columnAliases ++ c.columnAliases
  | .literal _ | .param _ | .existsIn .. | .clock _ | .aggregateRows .. | .raw _ => []

def allColumnAliases : List Expr → List Alias
  | [] => []
  | a :: as => a.columnAliases ++ allColumnAliases as

end

def aliases (e : Expr) : List Alias := e.columnAliases.eraseDups

def isOr : Expr → Bool
  | .binary .or _ _ => true
  | _ => false

end Expr

end SqlDialect
