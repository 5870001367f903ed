import SqlDialect.Keyed
import SqlDialect.Text.Ascii
import SqlDialect.Text.Blank
import SqlDialect.UnknownName

/-!
This module contains the vendor-neutral types of columns.
-/

namespace SqlDialect

inductive TypeCode where
  | array
  | bigInt
  | binary
  | bit
  | blob
  | boolean
  | char
  | clob
  | date
  | decimal
  | distinct
  | double
  | float
  | integer
  | javaObject
  | longVarBinary
  | longVarChar
  | null
  | numeric
  | other
  | real
  | ref
  | smallInt
  | struct
  | time
  | timestamp
  | tinyInt
  | varBinary
  | varChar
  deriving DecidableEq, Repr

namespace TypeCode

def all : List TypeCode := [
    .array, .bigInt, .binary, .bit, .blob, .boolean, .char, .clob, .date, .decimal, .distinct,
    .double, .float, .integer, .javaObject, .longVarBinary, .longVarChar, .null, .numeric,
    .other, .real, .ref, .smallInt, .struct, .time, .timestamp, .tinyInt, .varBinary, .varChar]

theorem mem_all (c : TypeCode) : c ∈ all := by
  cases c <;> decide

def name : TypeCode → String
  | .array => "ARRAY"
  | .bigInt => "BIGINT"
  | .binary => "BINARY"
  | .bit => "BIT"
  | .blob => "BLOB"
  | .boolean => "BOOLEAN"
  | .char => "CHAR"
  | .clob => "CLOB"
  | .date => "DATE"
  | .decimal => "DECIMAL"
  | .distinct => "DISTINCT"
  | .double => "DOUBLE"
  | .float => "FLOAT"
  | .integer => "INTEGER"
  | .javaObject => "JAVA_OBJECT"
  | .longVarBinary => "LONGVARBINARY"
  | .longVarChar => "LONGVARCHAR"
  | .null => "NULL"
  | .numeric => "NUMERIC"
  | .other => "OTHER"
  | .real => "REAL"
  | .ref => "REF"
  | .smallInt => "SMALLINT"
  | .struct => "STRUCT"
  | .time => "TIME"
  | .timestamp => "TIMESTAMP"
  | .tinyInt => "TINYINT"
  | .varBinary => "VARBINARY"
  | .varChar => "VARCHAR"

def key : TypeCode → String
  | .array => "array"
  | .bigInt => "big_int"
  | .binary => "binary"
  | .bit => "bit"
  | .blob => "blob"
  | .boolean => "boolean"
  | .char => "char"
  | .clob => "clob"
  | .date => "date"
  | .decimal => "decimal"
  | .distinct => "distinct"
  | .double => "double"
  | .float => "float"
  | .integer => "integer"
  | .javaObject => "java_object"
  | .longVarBinary => "long_var_binary"
  | .longVarChar => "long_var_char"
  | .null => "null"
  | .numeric => "numeric"
  | .other => "other"
  | .real => "real"
  | .ref => "ref"
  | .smallInt => "small_int"
  | .struct => "struct"
  | .time => "time"
  | .timestamp => "timestamp"
  | .tinyInt => "tiny_int"
  | .varBinary => "var_binary"
  | .varChar => "var_char"

instance : Keyed TypeCode := ⟨all, key⟩

/--
The form in which names are compared: without underscores, in upper case.
-/
def plainName (s : String) : String :=
  Text.upperAscii (String.ofList (s.toList.filter (· ≠ '_')))

/--
The type called `s`. Case, underscores and surrounding white space are ignored.
-/
def read (s : String) : Except UnknownName TypeCode :=
  let wanted := plainName (Text.trim s)
  match all.find? fun c => plainName c.name == wanted with
  | some c => .ok c
  | none => .error (.typeCode s)

end TypeCode

end SqlDialect
