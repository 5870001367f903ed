import SqlDialect.Profile.Generic

/-!
This module contains the profile of MySQL and MariaDB: LIMIT with a start, backticks,
AUTO_INCREMENT, and number types with modifiers.
-/

namespace SqlDialect
namespace Profile

def mySqlReservedWords : List String := [
    "AUTO_INCREMENT", "BINARY", "BLOB", "CHANGE", "DATABASE", "DATABASES", "DELAYED", "ENCLOSED",
    "EXPLAIN", "FIELDS", "FULLTEXT", "HIGH_PRIORITY", "IGNORE", "INDEX", "INFILE", "KEYS",
    "KILL", "LIMIT", "LINES", "LOAD", "LOCK", "LONG", "LOW_PRIORITY", "MEDIUMINT", "OPTIMIZE",
    "OPTIONALLY", "OUTFILE", "REGEXP", "RENAME", "REPLACE", "RLIKE", "SHOW", "STRAIGHT_JOIN",
    "TERMINATED", "TEXT", "TINYINT", "UNLOCK", "UNSIGNED", "USE", "ZEROFILL"]

def mySqlFixedSizeTypes : List String := [
    "BOOLEAN", "DATETIME", "DATE", "TIMESTAMP", "TIME", "TEXT", "TINYTEXT", "MEDIUMTEXT",
    "LONGTEXT", "BLOB", "TINYBLOB", "MEDIUMBLOB", "LONGBLOB"]

def mySql : Profile :=
  let p := base .mySql
  { p with
    paging := .limitStartCount
    capabilities :=
      (p.capabilities.insertMany [.selectStartIndex, .selectEndIndex, .autoAssign, .modOperator])
        |>.erase .deferredConstraints
    requirements.targetForDelete := true
    requirements.aliasForSubselect := true
    clauses.autoAssign := "AUTO_INCREMENT"
    clauses.distinctCountColumnSeparator := ","
    functions.concatenate := "CONCAT(\x7b0\x7d,\x7b1\x7d)"
    functions.indexOf := "LOCATE(\x7b1\x7d, \x7b0\x7d)"
    functions.indexOfFrom := "LOCATE(\x7b1\x7d, \x7b0\x7d, \x7b2\x7d)"
    functions.booleanStyle := .numeric
    types.names := p.types.setMany [
      (.bit, "BIT"), (.boolean, "BIT"), (.clob, "TEXT"), (.longVarChar, "TEXT"),
      (.longVarBinary, "LONGBLOB"), (.timestamp, "DATETIME"), (.double, "DOUBLE")] |>.names
    types.fixedSize := .ofList mySqlFixedSizeTypes
    types.modifiers := .ofList ["UNSIGNED", "ZEROFILL"]
    naming := { p.naming.withMaxLengths 64 with
      constraintNaming := .mid
      quoteStyle := .backtick
      reservedWords := p.naming.reservedWords.insertMany mySqlReservedWords } }

end Profile
end SqlDialect
