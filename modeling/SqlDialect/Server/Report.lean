import SqlDialect.Profile.Default
import SqlDialect.Server.Protocol
import SqlDialect.Server.Version
import SqlDialect.Text.Search

/-!
This module contains what a server is known by, and the profile that suits it.
-/

namespace SqlDialect

structure ServerReport where
  product : String
  version : String := ""
  url : String := ""
  deriving DecidableEq, Repr

def Vendor.markers : List (String × Vendor) := [
  ("oracle", .oracle),
  ("sqlserver", .sqlServer), ("jsqlconnect", .sqlServer), ("sql server", .sqlServer),
  ("mariadb", .mySql), ("mysql", .mySql),
  ("postgres", .postgres),
  ("db2", .db2), ("as400", .db2)]

def Vendor.namedIn? (s : String) : Option Vendor :=
  (markers.find? fun (marker, _) => Text.occurs marker (Text.lower s)).map (·.2)

def Db2Platform.classify (product version : String) (v : ServerVersion) : Db2Platform :=
  if Text.occurs "AS" product then
    if v.isAtMost ⟨5, 3⟩ then .iSeriesLegacy else .iSeries
  else if Text.occurs "SQL" version || Text.occurs "DB2/" product then
    if v.isAtMost ⟨8, 1⟩ then .udbLegacy else .udb
  else
    .zOs

namespace ServerReport

def vendor (r : ServerReport) : Vendor :=
  (Vendor.namedIn? r.product).or ((Protocol.ofUrl? r.url).bind Vendor.namedIn?) |>.getD .generic

def version? (r : ServerReport) : Option ServerVersion := ServerVersion.find? r.version

/--
The version of a DB2 server. One that says nothing is taken to be of a recent version.
-/
def db2Version (r : ServerReport) : ServerVersion :=
  if Text.occurs "AS" r.product then
    (ServerVersion.findISeries? r.version).getD ⟨5, 4⟩
  else
    r.version?.getD ⟨9, 7⟩

def profile (r : ServerReport) : Profile :=
  let p := r.vendor.profile
  match r.vendor with
  | .db2 =>
    let v := r.db2Version
    p.withDb2Version (.classify r.product r.version v) v.major v.minor
  | .oracle => if r.version?.any (·.major ≤ 8) then p.withoutTimestamps else p
  | _ => p

end ServerReport

end SqlDialect
