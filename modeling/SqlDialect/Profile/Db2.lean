import SqlDialect.Profile.Generic

/-!
This module contains the profile of DB2: FETCH FIRST, lock clauses that depend on the isolation and
on the server, and short constraint names.
-/

namespace SqlDialect
namespace Profile

def db2ReservedWords : List String := [
    "AFTER", "ALIAS", "ALLOW", "APPLICATION", "ASSOCIATE", "ASUTIME", "AUDIT", "AUX",
    "AUXILIARY", "BEFORE", "BINARY", "BUFFERPOOL", "CACHE", "CALL", "CALLED", "CAPTURE",
    "CARDINALITY", "CCSID", "CLUSTER", "COLLECTION", "COLLID", "COMMENT", "CONCAT", "CONDITION",
    "CONTAINS", "COUNT_BIG", "CURRENT_LC_CTYPE", "CURRENT_PATH", "CURRENT_SERVER",
    "CURRENT_TIMEZONE", "CYCLE", "DATABASE", "DAYS", "DB2GENERAL", "DB2GENRL", "DB2SQL",
    "DBINFO", "DEFAULTS", "DEFINITION", "DETERMINISTIC", "DISALLOW", "DO", "DSNHATTR", "DSSIZE",
    "DYNAMIC", "EACH", "EDITPROC", "ELSEIF", "ENCODING", "END-EXEC1", "ERASE", "EXCLUDING",
    "EXIT", "FENCED", "FIELDPROC", "FILE", "FINAL", "FREE", "FUNCTION", "GENERAL", "GENERATED",
    "GRAPHIC", "HANDLER", "HOLD", "HOURS", "IF", "INCLUDING", "INCREMENT", "INDEX", "INHERIT",
    "INOUT", "INTEGRITY", "ISOBID", "ITERATE", "JAR", "JAVA", "LABEL", "LC_CTYPE", "LEAVE",
    "LINKTYPE", "LOCALE", "LOCATOR", "LOCATORS", "LOCK", "LOCKMAX", "LOCKSIZE", "LONG", "LOOP",
    "MAXVALUE", "MICROSECOND", "MICROSECONDS", "MINUTES", "MINVALUE", "MODE", "MODIFIES",
    "MONTHS", "NEW", "NEW_TABLE", "NOCACHE", "NOCYCLE", "NODENAME", "NODENUMBER", "NOMAXVALUE",
    "NOMINVALUE", "NOORDER", "NULLS", "NUMPARTS", "OBID", "OLD", "OLD_TABLE", "OPTIMIZATION",
    "OPTIMIZE", "OUT", "OVERRIDING", "PACKAGE", "PARAMETER", "PART", "PARTITION", "PATH",
    "PIECESIZE", "PLAN", "PRIQTY", "PROGRAM", "PSID", "QUERYNO", "READS", "RECOVERY",
    "REFERENCING", "RELEASE", "RENAME", "REPEAT", "RESET", "RESIGNAL", "RESTART", "RESULT",
    "RESULT_SET_LOCATOR", "RETURN", "RETURNS", "ROUTINE", "ROW", "RRN", "RUN", "SAVEPOINT",
    "SCRATCHPAD", "SECONDS", "SECQTY", "SECURITY", "SENSITIVE", "SIGNAL", "SIMPLE", "SOURCE",
    "SPECIFIC", "SQLID", "STANDARD", "START", "STATIC", "STAY", "STOGROUP", "STORES", "STYLE",
    "SUBPAGES", "SYNONYM", "SYSFUN", "SYSIBM", "SYSPROC", "SYSTEM", "TABLESPACE", "TRIGGER",
    "UNDO", "UNTIL", "VALIDPROC", "VARIABLE", "VARIANT", "VCAT", "VOLUMES", "WHILE", "WLM",
    "YEARS"]

def db2FixedSizeTypes : List String := [
    "LONG VARCHAR FOR BIT DATA", "LONG VARCHAR", "LONG VARGRAPHIC"]

def db2ModernForUpdate : String := "WITH RR USE AND KEEP UPDATE LOCKS"

def db2 (platform : Db2Platform) : Profile :=
  let p := base .db2
  { p with
    paging := .fetchFirst
    locking := .db2 platform
    capabilities :=
      (p.capabilities.insert .selectEndIndex)
        |>.eraseMany [
          .deferredConstraints, .defaultDeleteAction, .alterTableDropColumn, .nullUniqueColumn,
          .lockingWithMultipleTables, .lockingWithInnerJoin, .lockingWithOuterJoin]
    functions.indexOf := "LOCATE(\x7b1\x7d, \x7b0\x7d)"
    functions.indexOfFrom := "LOCATE(\x7b1\x7d, \x7b0\x7d, \x7b2\x7d)"
    functions.booleanStyle := .numeric
    types.names := p.types.setMany [
      (.binary, "BLOB(1M)"), (.longVarBinary, "BLOB(1M)"), (.varBinary, "BLOB(1M)"),
      (.clob, "CLOB(1M)"), (.longVarChar, "LONG VARCHAR")] |>.names
    types.fixedSize := .ofList db2FixedSizeTypes
    naming := { p.naming with
      maxConstraintNameLength := 18
      maxColumnNameLength := 30
      reservedWords := p.naming.reservedWords.insertMany db2ReservedWords } }

def withDb2Version (p : Profile) (platform : Db2Platform) (major minor : Nat) : Profile :=
  let p := { p with locking := .db2 platform }
  let p :=
    if 9 < major ∨ major = 9 ∧ 2 ≤ minor then
      { p with
        capabilities := p.capabilities.insertMany [
          .lockingWithMultipleTables, .lockingWithInnerJoin, .lockingWithOuterJoin]
        clauses.forUpdate := db2ModernForUpdate }
    else
      p
  if platform = .zOs ∧ major = 8 then
    { p with types := p.types.set .bigInt "DECIMAL(31,0)" }
  else
    p

end Profile
end SqlDialect
