import SqlDialect.Profile.Generic

/-!
This module contains the profile of Oracle: outer joins marked with a plus sign, row ranges as
conditions on `ROWNUM`, and the `NUMBER` and `VARCHAR2` types.
-/

namespace SqlDialect
namespace Profile

def oracleReservedWords : List String := [
    "ACCESS", "AUDIT", "CLUSTER", "COMMENT", "COMPRESS", "EXCLUSIVE", "FILE", "IDENTIFIED",
    "INCREMENT", "INDEX", "INITIAL", "LOCK", "LONG", "MAXEXTENTS", "MINUS", "MODE", "NOAUDIT",
    "NOCOMPRESS", "NOWAIT", "OFFLINE", "ONLINE", "PCTFREE", "ROW", "ROWNUM"]

def oracleFixedSizeTypes : List String := [
    "LONG RAW", "RAW", "LONG", "REF"]

def oracle : Profile :=
  let p := base .oracle
  { p with
    joinSyntax := .native
    paging := .rowNum
    capabilities :=
      (p.capabilities.insertMany [.selectStartIndex, .selectEndIndex, .nativeOuterJoin])
        |>.erase .lockingWithDistinct
    clauses.nativeOuterJoinMarker := "(+)"
    functions.stringLength := "LENGTH(\x7b0\x7d)"
    functions.substring := "SUBSTR"
    functions.indexOf := "INSTR(\x7b0\x7d, \x7b1\x7d)"
    functions.indexOfFrom := "INSTR(\x7b0\x7d, \x7b1\x7d, \x7b2\x7d)"
    functions.booleanStyle := .numeric
    types.names := p.types.setMany [
      (.bigInt, "NUMBER\x7b0\x7d"), (.bit, "NUMBER\x7b0\x7d"), (.decimal, "NUMBER\x7b0\x7d"),
      (.double, "NUMBER\x7b0\x7d"), (.integer, "NUMBER\x7b0\x7d"), (.numeric, "NUMBER\x7b0\x7d"),
      (.smallInt, "NUMBER\x7b0\x7d"), (.tinyInt, "NUMBER\x7b0\x7d"), (.longVarChar, "LONG"),
      (.binary, "BLOB"), (.varBinary, "BLOB"), (.longVarBinary, "BLOB"), (.time, "DATE"),
      (.varChar, "VARCHAR2\x7b0\x7d")] |>.names
    types.fixedSize := .ofList oracleFixedSizeTypes
    naming := { p.naming.withMaxLengths 30 with
      reservedWords := p.naming.reservedWords.insertMany oracleReservedWords } }

def withoutTimestamps (p : Profile) : Profile :=
  { p with
    joinSyntax := .native
    types := p.types.setMany [(.date, "DATE"), (.timestamp, "DATE")] }

end Profile
end SqlDialect
