import SqlDialect.Profile.Generic

/-!
This module contains the profile of PostgreSQL: LIMIT and OFFSET after the lock clause, serial
columns, and no locks on distinct selects or across outer joins.
-/

namespace SqlDialect
namespace Profile

def postgresReservedWords : List String := [
    "ABORT", "ACL", "AGGREGATE", "APPEND", "ARCHIVE", "ARCH_STORE", "BACKWARD", "BINARY",
    "CHANGE", "CLUSTER", "COPY", "DATABASE", "DELIMITER", "DELIMITERS", "DO", "EXPLAIN",
    "EXTEND", "FORWARD", "HEAVY", "INDEX", "INHERITS", "ISNULL", "LIGHT", "LISTEN", "LIMIT",
    "LOAD", "MERGE", "NOTHING", "NOTIFY", "NOTNULL", "OFFSET", "OID", "OIDS", "PURGE", "RECIPE",
    "RENAME", "REPLACE", "RETRIEVE", "RETURNS", "RULE", "SETOF", "STDIN", "STDOUT", "STORE",
    "VACUUM", "VERBOSE", "VERSION"]

def postgresFixedSizeTypes : List String := [
    "BOOL", "BYTEA", "NAME", "INT8", "INT2", "INT2VECTOR", "INT4", "REGPROC", "TEXT", "OID",
    "TID", "XID", "CID", "OIDVECTOR", "SET", "FLOAT4", "FLOAT8", "ABSTIME", "RELTIME",
    "TINTERVAL", "MONEY"]

def postgres : Profile :=
  let p := base .postgres
  { p with
    paging := .limitOffset
    rangePosition := .postLock
    capabilities :=
      (p.capabilities.insertMany [.selectStartIndex, .selectEndIndex, .autoAssign, .modOperator])
        |>.eraseMany [.alterTableDropColumn, .lockingWithDistinct, .lockingWithOuterJoin]
    requirements.aliasForSubselect := true
    requirements.allowsAliasInBulkClause := false
    types.autoAssign := "BIGSERIAL"
    types.names := p.types.setMany [
      (.bit, "BOOL"), (.boolean, "BOOL"), (.smallInt, "SMALLINT"), (.tinyInt, "SMALLINT"),
      (.real, "FLOAT4"), (.double, "DOUBLE PRECISION"), (.binary, "BYTEA"), (.blob, "BYTEA"),
      (.longVarBinary, "BYTEA"), (.varBinary, "BYTEA"), (.clob, "TEXT"), (.longVarChar, "TEXT"),
      (.timestamp, "TIMESTAMP")] |>.names
    types.fixedSize := .ofList postgresFixedSizeTypes
    naming := { p.naming.withMaxLengths 63 with
      reservedWords := p.naming.reservedWords.insertMany postgresReservedWords } }

end Profile
end SqlDialect
