import SqlDialect.Keyed

/-!
This module contains the points on which the grammars of dialects differ, one type for each.
-/

namespace SqlDialect

inductive JoinSyntax where
  /-- `A t0 INNER JOIN B t1 ON ...` -/
  | sql92
  /-- `A t0, B t1 WHERE ...` -/
  | traditional
  /-- As `traditional`, with a mark on the optional side of an outer join. -/
  | native
  deriving DecidableEq, Repr

instance : Keyed JoinSyntax where
  all := [.sql92, .traditional, .native]
  key
    | .sql92 => "sql92"
    | .traditional => "traditional"
    | .native => "native"

inductive RangePosition where
  | preDistinct
  | postDistinct
  | postSelect
  | postLock
  deriving DecidableEq, Repr

instance : Keyed RangePosition where
  all := [.preDistinct, .postDistinct, .postSelect, .postLock]
  key
    | .preDistinct => "pre_distinct"
    | .postDistinct => "post_distinct"
    | .postSelect => "post_select"
    | .postLock => "post_lock"

inductive Paging where
  /-- Not at all: the caller skips and counts rows. -/
  | byCaller
  /-- `LIMIT n OFFSET s` -/
  | limitOffset
  /-- `LIMIT s, n` -/
  | limitStartCount
  /-- `FETCH FIRST n ROWS ONLY` -/
  | fetchFirst
  /-- `SELECT TOP n` -/
  | top
  /-- Conditions on the pseudo-column `ROWNUM`. -/
  | rowNum
  deriving DecidableEq, Repr

instance : Keyed Paging where
  all := [.byCaller, .limitOffset, .limitStartCount, .fetchFirst, .top, .rowNum]
  key
    | .byCaller => "none"
    | .limitOffset => "limit_offset"
    | .limitStartCount => "my_sql_limit"
    | .fetchFirst => "fetch_first"
    | .top => "top"
    | .rowNum => "row_num"

inductive ConstraintNaming where
  /-- `CONSTRAINT name PRIMARY KEY (...)` -/
  | before
  /-- `PRIMARY KEY name (...)` -/
  | mid
  /-- `PRIMARY KEY (...) CONSTRAINT name` -/
  | after
  deriving DecidableEq, Repr

instance : Keyed ConstraintNaming where
  all := [.before, .mid, .after]
  key
    | .before => "before"
    | .mid => "mid"
    | .after => "after"

inductive QuoteStyle where
  | double
  | backtick
  | bracket
  deriving DecidableEq, Repr

instance : Keyed QuoteStyle where
  all := [.double, .backtick, .bracket]
  key
    | .double => "double"
    | .backtick => "backtick"
    | .bracket => "bracket"

def QuoteStyle.opening : QuoteStyle → Char
  | .double => '"'
  | .backtick => '\x60'
  | .bracket => '['

def QuoteStyle.closing : QuoteStyle → Char
  | .double => '"'
  | .backtick => '\x60'
  | .bracket => ']'

inductive BooleanStyle where
  /-- `true` and `false` -/
  | literal
  /-- `1` and `0` -/
  | numeric
  deriving DecidableEq, Repr

instance : Keyed BooleanStyle where
  all := [.literal, .numeric]
  key
    | .literal => "literal"
    | .numeric => "numeric"

def BooleanStyle.text : BooleanStyle → Bool → String
  | .literal, true => "true"
  | .literal, false => "false"
  | .numeric, true => "1"
  | .numeric, false => "0"

inductive Db2Platform where
  /-- Up to 8.1. -/
  | udbLegacy
  /-- From 8.2 on. -/
  | udb
  | zOs
  /-- Up to V5R3. -/
  | iSeriesLegacy
  /-- From V5R4 on. -/
  | iSeries
  deriving DecidableEq, Repr

instance : Keyed Db2Platform where
  all := [.udbLegacy, .udb, .zOs, .iSeriesLegacy, .iSeries]
  key
    | .udbLegacy => "udb_legacy"
    | .udb => "udb"
    | .zOs => "z_os"
    | .iSeriesLegacy => "i_series_legacy"
    | .iSeries => "i_series"

def Db2Platform.isLegacy : Db2Platform → Bool
  | .udbLegacy | .iSeriesLegacy => true
  | _ => false

inductive Locking where
  /-- With one clause, whatever the isolation. -/
  | standard
  /-- With a clause that depends on the isolation and on the server. -/
  | db2 (platform : Db2Platform)
  deriving DecidableEq, Repr

inductive NameKind where
  | table
  | column
  | constraint
  | index
  | sequence
  /-- A sequence or trigger that fills an auto-assigned column. -/
  | autoAssign
  deriving DecidableEq, Repr

instance : Keyed NameKind where
  all := [.table, .column, .constraint, .index, .sequence, .autoAssign]
  key
    | .table => "table"
    | .column => "column"
    | .constraint => "constraint"
    | .index => "index"
    | .sequence => "sequence"
    | .autoAssign => "auto_assign"

end SqlDialect
