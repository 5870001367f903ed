import SqlDialect.Json
import SqlDialect.Profile.Basic

/-!
This module contains the serialized form of a profile: a JSON value with one field for each part.
-/

namespace SqlDialect

namespace Json

def ofKeyed {α : Type} [Keyed α] (a : α) : Json := .str (Keyed.key a)

def ofWords (s : WordSet) : Json := .arr (s.toList.map .str)

end Json

def Locking.toJson : Locking → Json
  | .standard => .obj [("kind", .str "standard")]
  | .db2 platform => .obj [("kind", .str "db2"), ("platform", .ofKeyed platform)]

def CapabilitySet.toJson (s : CapabilitySet) : Json := .arr (s.toList.map .ofKeyed)

def Requirements.toJson (r : Requirements) : Json := .obj [
  ("requires_alias_for_subselect", .bool r.aliasForSubselect),
  ("requires_target_for_delete", .bool r.targetForDelete),
  ("allows_alias_in_bulk_clause", .bool r.allowsAliasInBulkClause),
  ("requires_condition_for_cross_join", .bool r.conditionForCrossJoin),
  ("use_wildcard_for_count", .bool r.wildcardForCount),
  ("create_primary_keys", .bool r.createPrimaryKeys),
  ("simulate_locking", .bool r.simulateLocking),
  ("use_triggers_for_auto_assign", .bool r.triggersForAutoAssign)]

def Clauses.toJson (c : Clauses) : Json := .obj [
  ("inner_join", .str c.innerJoin),
  ("outer_join", .str c.outerJoin),
  ("cross_join", .str c.crossJoin),
  ("for_update", .ofText? c.forUpdate),
  ("table_for_update", .ofText? c.tableForUpdate),
  ("distinct_count_column_separator", .ofText? c.distinctCountColumnSeparator),
  ("auto_assign", .ofText? c.autoAssign),
  ("native_outer_join_marker", .ofText? c.nativeOuterJoinMarker),
  ("drop_table", .str c.dropTable)]

def Functions.toJson (f : Functions) : Json := .obj [
  ("cast", .str f.cast),
  ("to_lower", .str f.toLower),
  ("to_upper", .str f.toUpper),
  ("string_length", .str f.stringLength),
  ("trim_leading", .str f.trimLeading),
  ("trim_trailing", .str f.trimTrailing),
  ("trim_both", .str f.trimBoth),
  ("concatenate", .str f.concatenate),
  ("substring", .str f.substring),
  ("index_of", .str f.indexOf),
  ("index_of_from", .str f.indexOfFrom),
  ("modulo", .str f.modulo),
  ("current_date", .str f.currentDate),
  ("current_time", .str f.currentTime),
  ("current_timestamp", .str f.currentTimestamp),
  ("boolean_style", .ofKeyed f.booleanStyle)]

def TypeNames.toJson (t : TypeNames) : Json := .obj [
  ("names", .obj (TypeCode.all.filterMap fun c => (t.names c).map fun name => (c.key, .str name))),
  ("auto_assign", .ofText? t.autoAssign),
  ("fixed_size", .ofWords t.fixedSize),
  ("modifiers", .ofWords t.modifiers)]

def Naming.toJson (n : Naming) : Json := .obj [
  ("max_table_name_length", .num n.maxTableNameLength),
  ("max_column_name_length", .num n.maxColumnNameLength),
  ("max_constraint_name_length", .num n.maxConstraintNameLength),
  ("max_index_name_length", .num n.maxIndexNameLength),
  ("max_sequence_name_length", .num n.maxSequenceNameLength),
  ("max_auto_assign_name_length", .num n.maxAutoAssignNameLength),
  ("reserved_words", .ofWords n.reservedWords),
  ("constraint_name_mode", .ofKeyed n.constraintNaming),
  ("delimit_identifiers", .bool n.delimitIdentifiers),
  ("quote_style", .ofKeyed n.quoteStyle)]

def Profile.toJson (p : Profile) : Json := .obj [
  ("vendor", .ofKeyed p.vendor),
  ("platform", .str p.platform),
  ("join_syntax", .ofKeyed p.joinSyntax),
  ("range_position", .ofKeyed p.rangePosition),
  ("range", .ofKeyed p.paging),
  ("locking", p.locking.toJson),
  ("capabilities", p.capabilities.toJson),
  ("quirks", p.requirements.toJson),
  ("clauses", p.clauses.toJson),
  ("functions", p.functions.toJson),
  ("types", p.types.toJson),
  ("naming", p.naming.toJson)]

end SqlDialect
