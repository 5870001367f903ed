import SqlDialect.Profile.Basic

/-!
This module contains the profile of plain SQL-92. The profiles of all vendors start from it and
state only where they differ.
-/

namespace SqlDialect
namespace Profile

def sql92Keywords : List String := [
    "ABSOLUTE", "ACTION", "ADD", "ALL", "ALLOCATE", "ALTER", "AND", "ANY", "ARE", "AS", "ASC",
    "ASSERTION", "AT", "AUTHORIZATION", "AVG", "BEGIN", "BETWEEN", "BIT", "BIT_LENGTH", "BOTH",
    "BY", "CASCADE", "CASCADED", "CASE", "CAST", "CATALOG", "CHAR", "CHARACTER", "CHAR_LENGTH",
    "CHARACTER_LENGTH", "CHECK", "CLOSE", "COALESCE", "COLLATE", "COLLATION", "COLUMN", "COMMIT",
    "CONNECT", "CONNECTION", "CONSTRAINT", "CONSTRAINTS", "CONTINUE", "CONVERT", "CORRESPONDING",
    "COUNT", "CREATE", "CROSS", "CURRENT", "CURRENT_DATE", "CURRENT_TIME", "CURRENT_TIMESTAMP",
    "CURRENT_USER", "CURSOR", "DATE", "DAY", "DEALLOCATE", "DEC", "DECIMAL", "DECLARE",
    "DEFAULT", "DEFERRABLE", "DEFERRED", "DELETE", "DESC", "DESCRIBE", "DESCRIPTOR",
    "DIAGNOSTICS", "DISCONNECT", "DISTINCT", "DOMAIN", "DOUBLE", "DROP", "ELSE", "END",
    "END-EXEC", "ESCAPE", "EXCEPT", "EXCEPTION", "EXEC", "EXECUTE", "EXISTS", "EXTERNAL",
    "EXTRACT", "FALSE", "FETCH", "FIRST", "FLOAT", "FOR", "FOREIGN", "FOUND", "FROM", "FULL",
    "GET", "GLOBAL", "GO", "GOTO", "GRANT", "GROUP", "HAVING", "HOUR", "IDENTITY", "IMMEDIATE",
    "IN", "INDICATOR", "INITIALLY", "INNER", "INPUT", "INSENSITIVE", "INSERT", "INT", "INTEGER",
    "INTERSECT", "INTERVAL", "INTO", "IS", "ISOLATION", "JOIN", "KEY", "LANGUAGE", "LAST",
    "LEADING", "LEFT", "LEVEL", "LIKE", "LOCAL", "LOWER", "MATCH", "MAX", "MIN", "MINUTE",
    "MODULE", "MONTH", "NAMES", "NATIONAL", "NATURAL", "NCHAR", "NEXT", "NO", "NOT", "NULL",
    "NULLIF", "NUMERIC", "OCTET_LENGTH", "OF", "ON", "ONLY", "OPEN", "OPTION", "OR", "ORDER",
    "OUTER", "OUTPUT", "OVERLAPS", "PAD", "PARTIAL", "POSITION", "PRECISION", "PREPARE",
    "PRESERVE", "PRIMARY", "PRIOR", "PRIVILEGES", "PROCEDURE", "PUBLIC", "READ", "REAL",
    "REFERENCES", "RELATIVE", "RESTRICT", "REVOKE", "RIGHT", "ROLLBACK", "ROWS", "SCHEMA",
    "SCROLL", "SECOND", "SECTION", "SELECT", "SESSION", "SESSION_USER", "SET", "SIZE",
    "SMALLINT", "SOME", "SPACE", "SQL", "SQLCODE", "SQLERROR", "SQLSTATE", "SUBSTRING", "SUM",
    "SYSTEM_USER", "TABLE", "TEMPORARY", "THEN", "TIME", "TIMESTAMP", "TIMEZONE_HOUR",
    "TIMEZONE_MINUTE", "TO", "TRAILING", "TRANSACTION", "TRANSLATE", "TRANSLATION", "TRIM",
    "TRUE", "UNION", "UNIQUE", "UNKNOWN", "UPDATE", "UPPER", "USAGE", "USER", "USING", "VALUE",
    "VALUES", "VARCHAR", "VARYING", "VIEW", "WHEN", "WHENEVER", "WHERE", "WITH", "WORK", "WRITE",
    "YEAR", "ZONE"]

def baseCapabilities : List Capability := [
    .subselect, .correlatedSubselect, .having, .selectForUpdate, .lockingWithDistinct,
    .lockingWithMultipleTables, .lockingWithOrderBy, .lockingWithOuterJoin, .lockingWithInnerJoin,
    .lockingWithSelectRange, .foreignKeys, .uniqueConstraints, .deferredConstraints,
    .restrictDeleteAction, .cascadeDeleteAction, .nullDeleteAction, .defaultDeleteAction,
    .restrictUpdateAction, .cascadeUpdateAction, .nullUpdateAction, .defaultUpdateAction,
    .alterTableAddColumn, .alterTableDropColumn, .nullUniqueColumn]

def base (vendor : Vendor) : Profile where
  vendor := vendor
  platform := vendor.name
  joinSyntax := .sql92
  rangePosition := .postSelect
  paging := .byCaller
  locking := .standard
  capabilities := .ofList baseCapabilities
  requirements :=
    { aliasForSubselect := false
      targetForDelete := false
      allowsAliasInBulkClause := true
      conditionForCrossJoin := false
      wildcardForCount := false
      createPrimaryKeys := true
      simulateLocking := false
      triggersForAutoAssign := false }
  clauses :=
    { innerJoin := "INNER JOIN"
      outerJoin := "LEFT OUTER JOIN"
      crossJoin := "CROSS JOIN"
      forUpdate := "FOR UPDATE"
      tableForUpdate := none
      distinctCountColumnSeparator := none
      autoAssign := none
      nativeOuterJoinMarker := none
      dropTable := "DROP TABLE \x7b0\x7d" }
  functions :=
    { cast := "CAST(\x7b0\x7d AS \x7b1\x7d)"
      toLower := "LOWER(\x7b0\x7d)"
      toUpper := "UPPER(\x7b0\x7d)"
      stringLength := "CHAR_LENGTH(\x7b0\x7d)"
      trimLeading := "TRIM(LEADING \x7b1\x7d FROM \x7b0\x7d)"
      trimTrailing := "TRIM(TRAILING \x7b1\x7d FROM \x7b0\x7d)"
      trimBoth := "TRIM(BOTH \x7b1\x7d FROM \x7b0\x7d)"
      concatenate := "(\x7b0\x7d||\x7b1\x7d)"
      substring := "SUBSTRING"
      indexOf := "POSITION(\x7b1\x7d IN \x7b0\x7d)"
      indexOfFrom :=
        "(POSITION(\x7b1\x7d IN SUBSTRING(\x7b0\x7d FROM \x7b2\x7d)) - 1 + \x7b2\x7d)"
      modulo := "MOD(\x7b0\x7d, \x7b1\x7d)"
      currentDate := "CURRENT_DATE"
      currentTime := "CURRENT_TIME"
      currentTimestamp := "CURRENT_TIMESTAMP"
      booleanStyle := .literal }
  types :=
    { names := fun _ => none
      autoAssign := none
      fixedSize := .empty
      modifiers := .empty }
  naming :=
    { maxTableNameLength := 128
      maxColumnNameLength := 128
      maxConstraintNameLength := 128
      maxIndexNameLength := 128
      maxSequenceNameLength := 128
      maxAutoAssignNameLength := 31
      reservedWords := .ofList sql92Keywords
      constraintNaming := .before
      delimitIdentifiers := false
      quoteStyle := .double }

def generic : Profile := base .generic

end Profile
end SqlDialect
