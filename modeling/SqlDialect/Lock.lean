import SqlDialect.Profile.Basic

/-!
This module contains the locking of selected rows: what is asked for, what clause expresses it in a
dialect, and which selects can be locked at all.
-/

namespace SqlDialect

inductive Isolation where
  | readUncommitted
  | readCommitted
  | repeatableRead
  | serializable
  deriving DecidableEq, Repr

namespace Isolation

def all : List Isolation := [.readUncommitted, .readCommitted, .repeatableRead, .serializable]

def name : Isolation → String
  | .readUncommitted => "read-uncommitted"
  | .readCommitted => "read-committed"
  | .repeatableRead => "repeatable-read"
  | .serializable => "serializable"

def read (s : String) : Except UnknownName Isolation :=
  let wanted := String.ofList ((Text.lower s).toList.map fun c => if c = '_' then '-' else c)
  match all.find? (·.name == wanted) with
  | some level => .ok level
  | none => .error (.isolation wanted)

end Isolation

structure LockRequest where
  isolation : Option Isolation := none
  forUpdate : Bool := false
  /-- Rows that each come with several others are fetched along. -/
  toManyEagerJoin : Bool := false
  /-- The rows are going to be written, which takes the strictest isolation. -/
  pessimisticWrite : Bool := false
  deriving DecidableEq

namespace LockRequest

def unlocked : LockRequest := {}

def effectiveIsolation? (lock : LockRequest) : Option Isolation :=
  if lock.pessimisticWrite then some .serializable else lock.isolation

end LockRequest

namespace Db2Platform

def lockClause (platform : Db2Platform) (forUpdate : Option String) (isSerializable : Bool) :
    String :=
  let level := if isSerializable then "WITH RR" else "WITH RS"
  match platform with
  | .udbLegacy | .iSeriesLegacy =>
    if isSerializable then forUpdate.getD "FOR UPDATE" else s!"FOR UPDATE {level}"
  | .udb | .zOs => s!"FOR READ ONLY {level} USE AND KEEP UPDATE LOCKS"
  | .iSeries => s!"FOR READ ONLY {level} USE AND KEEP EXCLUSIVE LOCKS"

end Db2Platform

namespace Locking

def clause? (locking : Locking) (p : Profile) (isolation : Option Isolation)
    (forUpdate nested : Bool) : Compile (Option String) :=
  if forUpdate then
    if p.requirements.simulateLocking then
      return none
    else do
      p.require .selectForUpdate
      match locking with
      | .standard => return p.clauses.forUpdate
      | .db2 platform =>
        return platform.lockClause p.clauses.forUpdate (isolation == some .serializable)
  else
    match locking, isolation, nested with
    | .db2 _, some .readUncommitted, false => return some "FOR READ ONLY WITH UR"
    | _, _, _ => return none

end Locking

structure LockTarget where
  aggregate : Bool := false
  distinct : Bool := false
  tables : Nat := 0
  ordered : Bool := false
  ranged : Bool := false
  /-- The select is wrapped in another one for its row range. -/
  rangeWraps : Bool := false
  innerJoin : Bool := false
  outerJoin : Bool := false
  deriving DecidableEq

namespace LockTarget

def needs (t : LockTarget) : List Capability :=
  [(t.ranged || t.rangeWraps, Capability.lockingWithSelectRange),
    (t.distinct, .lockingWithDistinct),
    (decide (1 < t.tables), .lockingWithMultipleTables),
    (t.ordered, .lockingWithOrderBy),
    (t.outerJoin, .lockingWithOuterJoin),
    (t.innerJoin, .lockingWithInnerJoin)].filterMap
      fun (applies, capability) => if applies then some capability else none

/--
Fails if a dialect cannot lock a select, with the first reason found. A select that is wrapped in
another one can never be locked.
-/
def check (t : LockTarget) (p : Profile) : Compile Unit := do
  if t.aggregate then
    throw (.unsupported .selectForUpdate s!"{p.platform} (aggregate select)")
  p.require .selectForUpdate
  t.needs.forM p.require
  if t.rangeWraps then
    throw (.unsupported .lockingWithSelectRange p.platform)

end LockTarget

end SqlDialect
