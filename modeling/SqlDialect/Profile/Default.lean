import SqlDialect.Profile.Db2
import SqlDialect.Profile.MySql
import SqlDialect.Profile.Oracle
import SqlDialect.Profile.Postgres
import SqlDialect.Profile.SqlServer

/-!
This module contains the choice of a profile for a vendor.
-/

namespace SqlDialect

def Vendor.profile : Vendor → Profile
  | .generic => .generic
  | .postgres => .postgres
  | .oracle => .oracle
  | .db2 => .db2 .udb
  | .mySql => .mySql
  | .sqlServer => .sqlServer

end SqlDialect
