import SqlDialect.Number.Layout
import SqlDialect.Profile.Basic

/-!
This module contains the tokens that statements are made of, and their text in a dialect.
-/

namespace SqlDialect

inductive Keyword where
  | select
  | from_
  | where_
  | and
  | or
  | not
  | as
  | on
  | groupBy
  | having
  | orderBy
  | asc
  | desc
  | limit
  | offset
  | fetch
  | first
  | rows
  | only
  | top
  | in_
  | like
  | escape
  | isNull
  | isNotNull
  | distinct
  | exists_
  | null
  | create
  | alter
  | drop
  | table
  | column
  | index
  | sequence
  | constraint
  | primaryKey
  | foreignKey
  | references
  | unique
  | default_
  | notNull
  | add
  | deferrable
  | initiallyDeferred
  | startWith
  | incrementBy
  | update
  | set_
  | delete
  deriving DecidableEq, Repr

def Keyword.all : List Keyword := [
  .select, .from_, .where_, .and, .or, .not, .as, .on, .groupBy, .having, .orderBy, .asc, .desc,
  .limit, .offset, .fetch, .first, .rows, .only, .top, .in_, .like, .escape, .isNull, .isNotNull,
  .distinct, .exists_, .null, .create, .alter, .drop, .table, .column, .index, .sequence,
  .constraint, .primaryKey, .foreignKey, .references, .unique, .default_, .notNull, .add,
  .deferrable, .initiallyDeferred, .startWith, .incrementBy, .update, .set_, .delete]

def Keyword.text : Keyword → String
  | .select => "SELECT"
  | .from_ => "FROM"
  | .where_ => "WHERE"
  | .and => "AND"
  | .or => "OR"
  | .not => "NOT"
  | .as => "AS"
  | .on => "ON"
  | .groupBy => "GROUP BY"
  | .having => "HAVING"
  | .orderBy => "ORDER BY"
  | .asc => "ASC"
  | .desc => "DESC"
  | .limit => "LIMIT"
  | .offset => "OFFSET"
  | .fetch => "FETCH"
  | .first => "FIRST"
  | .rows => "ROWS"
  | .only => "ONLY"
  | .top => "TOP"
  | .in_ => "IN"
  | .like => "LIKE"
  | .escape => "ESCAPE"
  | .isNull => "IS NULL"
  | .isNotNull => "IS NOT NULL"
  | .distinct => "DISTINCT"
  | .exists_ => "EXISTS"
  | .null => "NULL"
  | .create => "CREATE"
  | .alter => "ALTER"
  | .drop => "DROP"
  | .table => "TABLE"
  | .column => "COLUMN"
  | .index => "INDEX"
  | .sequence => "SEQUENCE"
  | .constraint => "CONSTRAINT"
  | .primaryKey => "PRIMARY KEY"
  | .foreignKey => "FOREIGN KEY"
  | .references => "REFERENCES"
  | .unique => "UNIQUE"
  | .default_ => "DEFAULT"
  | .notNull => "NOT NULL"
  | .add => "ADD"
  | .deferrable => "DEFERRABLE"
  | .initiallyDeferred => "INITIALLY DEFERRED"
  | .startWith => "START WITH"
  | .incrementBy => "INCREMENT BY"
  | .update => "UPDATE"
  | .set_ => "SET"
  | .delete => "DELETE"

inductive Symbol where
  | comma
  | dot
  | star
  | lparen
  | rparen
  | eq
  | ne
  | lt
  | gt
  | le
  | ge
  | plus
  | minus
  | times
  | divide
  | percent
  deriving DecidableEq, Repr

def Symbol.text : Symbol → String
  | .comma => ","
  | .dot => "."
  | .star => "*"
  | .lparen => "("
  | .rparen => ")"
  | .eq => "="
  | .ne => "<>"
  | .lt => "<"
  | .gt => ">"
  | .le => "<="
  | .ge => ">="
  | .plus => "+"
  | .minus => "-"
  | .times => "*"
  | .divide => "/"
  | .percent => "%"

inductive Token where
  | keyword (word : Keyword)
  | symbol (symbol : Symbol)
  | space
  /-- The name of a table or column. -/
  | ident (name : String)
  | tableAlias (a : Alias)
  | int (n : Int)
  /-- A number of rows. -/
  | count (n : Nat)
  | float (x : Binary64)
  | string (s : String)
  | bool (b : Bool)
  /-- A place for the value of a parameter. -/
  | param
  /-- Text that is already SQL. -/
  | raw (sql : String)
  deriving DecidableEq

namespace Token

/--
Decimals from 0.00001 up to sixteen digits before the point are written without an exponent.
-/
def floatLayout : DecimalLayout := ⟨-5, 16⟩

def ofFloat (x : Binary64) : Except FloatTokenError Token :=
  if x.isFinite then .ok (.float x) else .error (if x.isNaN then .nan else .infinite)

def floatText (x : Binary64) : String :=
  match FiniteBinary64.ofBinary64? x with
  | some x => floatLayout.writeFloat x
  | none => x.specialName

def write (p : Profile) : Token → String
  | .keyword word => word.text
  | .symbol s => s.text
  | .space => " "
  | .ident name => p.quoteIdentifier name
  | .tableAlias a => toString a
  | .int n => toString n
  | .count n => toString n
  | .float x => floatText x
  | .string s => Text.quoteString s
  | .bool b => p.formatBool b
  | .param => "?"
  | .raw sql => sql

def writeAll (p : Profile) (ts : List Token) : String := String.join (ts.map (write p))

/--
The text of a token for a statement. There is a panic if it is a float without a text.
-/
def serialize (p : Profile) : Token → Compile String
  | .float x =>
    match ofFloat x with
    | .ok t => .ok (t.write p)
    | .error cause => .error (.nonFiniteLiteral x cause)
  | t => .ok (t.write p)

@[inherit_doc serialize]
def serializeAll (p : Profile) (ts : List Token) : Compile String :=
  return String.join (← ts.mapM (serialize p))

def column (a : Alias) (name : String) : List Token := [.tableAlias a, .symbol .dot, .ident name]

def parens (ts : List Token) : List Token := .symbol .lparen :: ts ++ [.symbol .rparen]

def commaSep (tss : List (List Token)) : List Token := [.symbol .comma, .space].intercalate tss

def qualified (schema : Option String) (name : String) : List Token :=
  match schema with
  | some schema => [.ident schema, .symbol .dot, .ident name]
  | none => [.ident name]

end Token

end SqlDialect
