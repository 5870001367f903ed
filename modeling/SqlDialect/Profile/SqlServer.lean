import SqlDialect.Profile.Generic

/-!
This module contains the profile of SQL Server: TOP after DISTINCT, brackets, and lock hints on the
tables in place of a lock clause.
-/

namespace SqlDialect
namespace Profile

def sqlServerReservedWords : List String := [
    "BACKUP", "BREAK", "BROWSE", "BULK", "CHECKPOINT", "CLUSTERED", "COMPUTE", "CONTAINS",
    "CONTAINSTABLE", "DATABASE", "DBCC", "DENY", "DISK", "DISTRIBUTED", "DUMMY", "DUMP",
    "ERRLVL", "EXIT", "FILE", "FILLFACTOR", "FREETEXT", "FREETEXTTABLE", "FUNCTION", "HOLDLOCK",
    "IDENTITY_INSERT", "IDENTITYCOL", "IF", "INDEX", "KILL", "LINENO", "LOAD", "NOCHECK",
    "NONCLUSTERED", "OFF", "OFFSETS", "OPENDATASOURCE", "OPENQUERY", "OPENROWSET", "OPENXML",
    "OVER", "PERCENT", "PLAN", "PRINT", "PROC", "RAISERROR", "READTEXT", "RECONFIGURE",
    "REPLICATION", "RESTORE", "RETURN", "ROWCOUNT", "ROWGUIDCOL", "RULE", "SAVE", "SETUSER",
    "SHUTDOWN", "STATISTICS", "TEXTSIZE", "TOP", "TRAN", "TRIGGER", "TRUNCATE", "TSEQUAL",
    "UPDATETEXT", "WAITFOR", "WHILE", "WRITETEXT"]

def sqlServerFixedSizeTypes : List String := [
    "IMAGE", "TEXT", "NTEXT", "DATETIME", "BIT", "INT"]

def sqlServer : Profile :=
  let p := base .sqlServer
  { p with
    paging := .top
    rangePosition := .postDistinct
    capabilities :=
      (p.capabilities.insertMany [.selectEndIndex, .autoAssign, .modOperator])
        |>.eraseMany [.lockingWithDistinct, .lockingWithOuterJoin, .deferredConstraints]
    requirements.allowsAliasInBulkClause := false
    requirements.aliasForSubselect := true
    clauses.forUpdate := none
    clauses.tableForUpdate := "WITH (UPDLOCK)"
    clauses.autoAssign := "IDENTITY"
    functions.concatenate := "(\x7b0\x7d+\x7b1\x7d)"
    functions.stringLength := "LEN(\x7b0\x7d)"
    functions.indexOf := "CHARINDEX(\x7b1\x7d, \x7b0\x7d)"
    functions.indexOfFrom := "CHARINDEX(\x7b1\x7d, \x7b0\x7d, \x7b2\x7d)"
    functions.currentDate := "CAST(GETDATE() AS DATE)"
    functions.currentTime := "CAST(GETDATE() AS TIME)"
    functions.currentTimestamp := "GETDATE()"
    functions.booleanStyle := .numeric
    types.names := p.types.setMany [
      (.blob, "IMAGE"), (.longVarBinary, "IMAGE"), (.clob, "TEXT"), (.longVarChar, "TEXT"),
      (.boolean, "BIT"), (.double, "FLOAT(32)"), (.integer, "INT"), (.timestamp, "DATETIME"),
      (.date, "DATETIME"), (.time, "DATETIME")] |>.names
    types.fixedSize := .ofList sqlServerFixedSizeTypes
    naming := { p.naming with
      quoteStyle := .bracket
      reservedWords := p.naming.reservedWords.insertMany sqlServerReservedWords } }

end Profile
end SqlDialect
