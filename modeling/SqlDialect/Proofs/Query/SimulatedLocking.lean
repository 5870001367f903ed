import SqlDialect.Proofs.Query.Locking

/-!
This module contains locks that are only simulated. A dialect that simulates locks writes nothing
for them, so a query has the same text with a lock as without one. It still has to be a query that
the dialect can lock.
-/

namespace SqlDialect

/-! ## Queries that can be locked -/

theorem Profile.forM_require (p : Profile) (cs : List Capability)
    : (∀ c ∈ cs, p.supports c = true) ∧ cs.forM p.require = .ok ()
        ∨ ∃ c ∈ cs, p.supports c = false
            ∧ cs.forM p.require = .error (.unsupported c p.platform) := by
  induction cs with
  | nil => exact .inl ⟨by simp, rfl⟩
  | cons c cs ih =>
    have hcons : (c :: cs).forM p.require = p.require c >>= fun _ => cs.forM p.require := rfl
    rw [hcons]
    cases hc : p.supports c with
    | false =>
      have hrequire : p.require c = .error (.unsupported c p.platform) := by simp [require, hc]
      rw [hrequire]
      exact .inr ⟨c, List.mem_cons_self, hc, rfl⟩
    | true =>
      have hrequire : p.require c = .ok () := require_eq_ok_iff.mpr hc
      rw [hrequire, Compile.ok_bind]
      obtain ⟨hall, hok⟩ | ⟨d, hd, herror⟩ := ih
      · exact .inl ⟨List.forall_mem_cons.mpr ⟨hc, hall⟩, hok⟩
      · exact .inr ⟨d, List.mem_cons_of_mem c hd, herror⟩

namespace LockTarget

/--
A select that a dialect can lock.
-/
structure Lockable (t : LockTarget) (p : Profile) : Prop where
  not_aggregate : t.aggregate = false
  not_rangeWraps : t.rangeWraps = false
  supports : ∀ c ∈ .selectForUpdate :: t.needs, p.supports c = true

theorem check_cases (t : LockTarget) (p : Profile)
    : t.Lockable p ∧ t.check p = .ok ()
        ∨ ¬ t.Lockable p ∧ ∃ e, t.check p = .error e ∧ e.isUnsupported = true := by
  cases haggregate : t.aggregate with
  | true =>
    obtain ⟨dialect, hcheck⟩
        : ∃ dialect, t.check p = .error (.unsupported .selectForUpdate dialect) := by
      unfold check
      rw [haggregate]
      exact ⟨_, rfl⟩
    refine .inr ⟨fun h => ?_, _, hcheck, rfl⟩
    rw [h.not_aggregate] at haggregate
    cases haggregate
  | false =>
    have hcheck : t.check p = (Capability.selectForUpdate :: t.needs).forM p.require >>= fun _ =>
        if t.rangeWraps then .error (.unsupported .lockingWithSelectRange p.platform)
        else .ok () := by
      unfold check
      rw [haggregate]
      exact (bind_assoc ..).symm
    rw [hcheck]
    obtain ⟨hall, hok⟩ | ⟨c, hc, hunsupported, herror⟩ :=
      p.forM_require (.selectForUpdate :: t.needs)
    · rw [hok, Compile.ok_bind]
      cases hwraps : t.rangeWraps with
      | true =>
        refine .inr ⟨fun h => ?_, _, rfl, rfl⟩
        rw [h.not_rangeWraps] at hwraps
        cases hwraps
      | false => exact .inl ⟨⟨haggregate, hwraps, hall⟩, rfl⟩
    · rw [herror]
      refine .inr ⟨fun h => ?_, _, rfl, rfl⟩
      rw [h.supports c hc] at hunsupported
      cases hunsupported

end LockTarget

namespace Query

variable {q : Query} {lock : LockRequest}

theorem lockClause?_of_simulates (hsimulates : q.profile.requirements.simulateLocking = true)
    (hlock : lock.forUpdate = true)
    : q.lockClause? .root lock
        =
      (q.lockTarget .root lock >>= fun t => t.check q.profile >>= fun _ => .ok none) := by
  have hforUpdate : forUpdate .root lock = true := by simp [forUpdate, hlock]
  simp only [lockClause?, hforUpdate, if_true, Locking.clause?, hsimulates]
  rfl

theorem tableHint_of_simulates (hsimulates : q.profile.requirements.simulateLocking = true)
    (id : ScopeId) : tableHint q.profile id lock = none := by
  simp [tableHint, hsimulates]

theorem renderScope_of_simulates (hsimulates : q.profile.requirements.simulateLocking = true)
    (hlock : lock.forUpdate = true) {ctx : RenderContext} {r : Rendered}
    (h : q.renderScope .root .unlocked ctx = .ok r)
    : q.renderScope .root lock ctx
        =
      (q.lockTarget .root lock >>= fun t => t.check q.profile >>= fun _ => .ok r) := by
  rw [renderScope_eq, lockClause?_unlocked] at h
  obtain ⟨s, hs, h⟩ := Compile.bind_eq_ok_iff.mp h
  rw [renderScope_eq, hs, lockClause?_of_simulates hsimulates hlock,
    tableHint_of_simulates hsimulates]
  simp only [Compile.ok_bind, bind_assoc] at h ⊢
  split at h
  · cases h
  · next hitems =>
    rw [if_neg hitems]
    simp only [← h]
    rfl

theorem lockTarget_of_render {c : CompiledSelect} (h : q.render .unlocked = .ok c)
    (lock : LockRequest) : ∃ t, q.lockTarget .root lock = .ok t := by
  obtain ⟨r, hr, _⟩ := Compile.bind_eq_ok_iff.mp h
  rw [renderScope_eq, lockClause?_unlocked] at hr
  obtain ⟨s, hs, hr⟩ := Compile.bind_eq_ok_iff.mp hr
  split at hr
  · cases hr
  · rw [Compile.ok_bind] at hr
    obtain ⟨tables, htables, _⟩ := Compile.bind_eq_ok_iff.mp hr
    obtain ⟨scope, hscope, _⟩ := Compile.bind_eq_ok_iff.mp htables
    simp only [lockTarget, hs, hscope, Compile.ok_bind]
    exact ⟨_, rfl⟩

/--
A query that has a text without a lock has the same text with a lock that is only simulated, if the
dialect can lock it. If not, the lock is refused as one that the dialect does not support.
-/
theorem render_simulated (q : Query) (lock : LockRequest) {c : CompiledSelect}
    (hsimulates : q.profile.requirements.simulateLocking = true) (hlock : lock.forUpdate = true)
    (h : q.render .unlocked = .ok c)
    : ∃ t, q.lockTarget .root lock = .ok t
        ∧ (q.supportsLocking lock = true ↔ t.Lockable q.profile)
        ∧ (q.supportsLocking lock = true → q.render lock = .ok c)
        ∧ (q.supportsLocking lock = false →
            ∃ e, q.render lock = .error e ∧ e.isUnsupported = true) := by
  obtain ⟨t, ht⟩ := lockTarget_of_render h lock
  obtain ⟨r, hr, hc⟩ := Compile.bind_eq_ok_iff.mp h
  have hrender : q.render lock = t.check q.profile >>= fun _ => .ok c := by
    unfold render
    rw [renderScope_of_simulates hsimulates hlock hr, ht, Compile.ok_bind, bind_assoc]
    exact congrArg (t.check q.profile >>= ·) (funext fun _ => hc)
  have hsupports : q.supportsLocking lock = true ↔ t.check q.profile = .ok () := by
    rw [supportsLocking_iff]
    simp [ht]
  refine ⟨t, ht, ?_⟩
  rw [← Bool.not_eq_true, hsupports, hrender]
  obtain ⟨hlockable, hok⟩ | ⟨hlockable, e, herror, hunsupported⟩ := t.check_cases q.profile
  · simp [hok, hlockable]
  · simp [herror, hlockable, hunsupported]

-- The lock would be a hint on both tables.
theorem render_simulated_hints
    : let key : ForeignKey :=
        { columns := ["C_ID"], referencedTable := "C", primaryKeyColumns := ["ID"] }
      let rel : Relation :=
        { name := "c", source := { name := "O" }, target := { name := "C" }, foreignKey := key }
      let build : Compile Query := do
        let q := Query.new { Vendor.sqlServer.profile with
          joinSyntax := .traditional
          requirements.simulateLocking := true }
        let (o, q) ← q.fromTable .root { name := "O" }
        let (_, q) ← q.join .root .root rel
        let (_, q) ← q.addItem .root { expr := .column o "ID" }
        q.setRange .root { start := 2, stop := some 5 }
      let lock : LockRequest := { forUpdate := true, pessimisticWrite := true }
      ∃ q c, build = .ok q ∧ q.profile.requirements.simulateLocking = true
        ∧ lock.forUpdate = true ∧ q.render .unlocked = .ok c
        ∧ c.sql = "SELECT TOP 5 t0.ID FROM O t0, C t1 WHERE t0.C_ID = t1.ID"
        ∧ q.supportsLocking lock = true ∧ q.render lock = .ok c := by
  intro key rel build lock
  obtain ⟨q, c, hq, hsimulates, hc, hsupports, hsql⟩ : ∃ q c, build = .ok q
      ∧ q.profile.requirements.simulateLocking = true ∧ q.render .unlocked = .ok c
      ∧ q.supportsLocking lock = true
      ∧ c.sql = "SELECT TOP 5 t0.ID FROM O t0, C t1 WHERE t0.C_ID = t1.ID" :=
    ⟨_, _, rfl, rfl, rfl, rfl, by decide +kernel⟩
  obtain ⟨_, _, _, hsame, _⟩ := render_simulated q lock hsimulates rfl hc
  exact ⟨q, c, hq, hsimulates, rfl, hc, hsql, hsupports, hsame hsupports⟩

-- No dialect locks an aggregate.
theorem render_simulated_aggregate
    : let build : Compile Query := do
        let q := Query.new { Vendor.generic.profile with
          joinSyntax := .traditional
          requirements.simulateLocking := true }
        let (t, q) ← q.fromTable .root { name := "T" }
        let (_, q) ← q.addItem .root { expr := .aggregate .max (.column t "A") false }
        return q
      ∃ q c, build = .ok q ∧ q.profile.requirements.simulateLocking = true
        ∧ q.render .unlocked = .ok c ∧ c.sql = "SELECT MAX(t0.A) FROM T t0"
        ∧ q.render { forUpdate := true }
            = .error (.unsupported .selectForUpdate "Generic (aggregate select)") := by
  intro build
  exact ⟨_, _, rfl, rfl, rfl, by decide +kernel, rfl⟩

end Query
end SqlDialect
