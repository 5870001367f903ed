import SqlDialect.Proofs.Compile
import SqlDialect.Settings.Basic

/-!
This module contains what adjustments make of a profile. They set some of its parts and add to
others, so a profile that has been adjusted stays the same when it is adjusted again. Whether they
can be made does not depend on the profile.
-/

namespace SqlDialect

/-! ## Parts of profiles -/

theorem getD_getD {α : Type} (x : Option α) (a : α) : x.getD (x.getD a) = x.getD a := by
  cases x <;> rfl

theorem insertWord_of_mem {w : String} {vs : List String} (hvs : vs.Pairwise (· < ·)) (h : w ∈ vs)
    : insertWord w vs = vs := by
  induction vs with
  | nil => cases h
  | cons v vs ih =>
    obtain ⟨hv, hvs⟩ := List.pairwise_cons.mp hvs
    rw [insertWord]
    rcases List.mem_cons.mp h with rfl | h
    · rw [if_neg (String.lt_irrefl w), if_pos rfl]
    · have hlt : v < w := hv w h
      have hne : w ≠ v := by
        rintro rfl
        exact String.lt_irrefl w hlt
      rw [if_neg (String.lt_asymm hlt), if_neg hne, ih hvs h]

theorem WordSet.insertMany_of_mem {s : WordSet} {ws : List String} (h : ∀ w ∈ ws, w ∈ s)
    : s.insertMany ws = s := by
  induction ws with
  | nil => rfl
  | cons w ws ih =>
    have hw : s.insert w = s := WordSet.ext (insertWord_of_mem s.sorted (h w List.mem_cons_self))
    change (s.insert w).insertMany ws = s
    rw [hw]
    exact ih fun v hv => h v (List.mem_cons_of_mem w hv)

namespace TypeNames

-- The last name that a type is given counts.
theorem setMany_eq (t : TypeNames) (names : List (TypeCode × String))
    : t.setMany names
        =
      { t with names := fun code => (names.reverse.lookup code).or (t.names code) } := by
  induction names generalizing t with
  | nil => rfl
  | cons x names ih =>
    obtain ⟨key, name⟩ := x
    change (t.set key name).setMany names = _
    rw [ih]
    simp only [set, List.reverse_cons, List.lookup_append, Option.or_assoc]
    congr
    funext code
    by_cases h : code = key
    · simp [h]
    · have hne : (code == key) = false := by simp [h]
      simp [List.lookup_cons, h, hne]

theorem setMany_setMany (t : TypeNames) (names : List (TypeCode × String))
    : (t.setMany names).setMany names = t.setMany names := by
  simp only [setMany_eq, ← Option.or_assoc, Option.or_self]

end TypeNames

/-! ## When adjustments can be made -/

theorem TypeCode.exists_read_iff {s : String}
    : (∃ code, TypeCode.read s = .ok code)
        ↔ ∃ code : TypeCode, plainName (Text.trim s) = plainName code.name := by
  unfold read
  generalize plainName (Text.trim s) = wanted
  dsimp only
  cases hfind : all.find? fun c => plainName c.name == wanted with
  | some code =>
    have hname := List.find?_some hfind
    rw [beq_iff_eq] at hname
    exact ⟨fun _ => ⟨code, hname.symm⟩, fun _ => ⟨code, rfl⟩⟩
  | none =>
    constructor
    · rintro ⟨code, hcode⟩
      cases hcode
    · rintro ⟨code, hcode⟩
      have hname := List.find?_eq_none.mp hfind code (mem_all code)
      rw [beq_iff_eq] at hname
      exact absurd hcode.symm hname

namespace Overrides

variable {o : Overrides}

theorem mem_insertByKey {x y : String × String} {ys : List (String × String)}
    : y ∈ insertByKey x ys ↔ y = x ∨ y ∈ ys := by
  induction ys with
  | nil => simp [insertByKey]
  | cons z ys ih =>
    rw [insertByKey]
    split
    · simp only [List.mem_cons, ih]
      grind
    · simp

theorem mem_foldr_insertByKey {y : String × String} {xs : List (String × String)}
    : y ∈ xs.foldr insertByKey [] ↔ y ∈ xs := by
  induction xs with
  | nil => simp
  | cons x xs ih => rw [List.foldr_cons, mem_insertByKey, ih, List.mem_cons]

theorem exists_typeCodes_iff
    : (∃ codes, o.typeCodes = .ok codes)
        ↔ ∀ x ∈ o.typeNames, ∃ code : TypeCode,
            TypeCode.plainName (Text.trim x.1) = TypeCode.plainName code.name := by
  unfold typeCodes
  rw [Compile.exists_mapM_eq_ok_iff]
  simp only [mem_foldr_insertByKey]
  refine forall₂_congr fun x _ => ?_
  rw [← TypeCode.exists_read_iff]
  cases TypeCode.read x.1 <;> simp

def maxNameLength? (o : Overrides) : NameKind → Option Nat
  | .table => o.maxTableNameLength
  | .column => o.maxColumnNameLength
  | .constraint => o.maxConstraintNameLength
  | .index => o.maxIndexNameLength
  | .sequence => o.maxSequenceNameLength
  | .autoAssign => o.maxAutoAssignNameLength

theorem mem_lengths_iff {n : Nat} : n ∈ o.lengths ↔ ∃ kind, o.maxNameLength? kind = some n := by
  constructor
  · intro h
    simp only [lengths, List.mem_filterMap, List.mem_cons, List.not_mem_nil, or_false, id] at h
    obtain ⟨_, rfl | rfl | rfl | rfl | rfl | rfl, h⟩ := h
    · exact ⟨.table, h⟩
    · exact ⟨.column, h⟩
    · exact ⟨.constraint, h⟩
    · exact ⟨.index, h⟩
    · exact ⟨.sequence, h⟩
    · exact ⟨.autoAssign, h⟩
  · rintro ⟨kind, h⟩
    refine List.mem_filterMap.mpr ⟨_, ?_, h⟩
    cases kind <;> simp

theorem apply_eq_ok_iff {p p' : Profile}
    : o.apply p = .ok p'
        ↔ (∀ c ∈ o.enable, c ∉ o.disable) ∧ 0 ∉ o.lengths
          ∧ ∃ codes, o.typeCodes = .ok codes ∧ o.adjust codes p = p' := by
  have hfind : o.enable.find? (o.disable.contains ·) = none ↔ ∀ c ∈ o.enable, c ∉ o.disable := by
    simp
  rw [← hfind, ← List.contains_iff_mem, Bool.not_eq_true]
  unfold apply
  cases o.enable.find? (o.disable.contains ·) with
  | some c => simp [throw, throwThe, MonadExceptOf.throw, bind, Except.bind]
  | none =>
    cases o.lengths.contains 0 with
    | true => simp [throw, throwThe, MonadExceptOf.throw, bind, Except.bind]
    | false =>
      cases o.typeCodes with
      | error e => simp [bind, Except.bind]
      | ok codes => simp [bind, Except.bind, pure, Except.pure]

theorem exists_apply_iff (p : Profile)
    : (∃ p', o.apply p = .ok p')
        ↔ (∀ c ∈ o.enable, c ∉ o.disable) ∧ (∀ kind, o.maxNameLength? kind ≠ some 0)
          ∧ ∀ x ∈ o.typeNames, ∃ code : TypeCode,
              TypeCode.plainName (Text.trim x.1) = TypeCode.plainName code.name := by
  have hlengths : 0 ∉ o.lengths ↔ ∀ kind, o.maxNameLength? kind ≠ some 0 := by
    rw [mem_lengths_iff, not_exists]
  rw [← exists_typeCodes_iff, ← hlengths]
  simp only [apply_eq_ok_iff]
  constructor
  · rintro ⟨_, hconflict, hzero, codes, hcodes, _⟩
    exact ⟨hconflict, hzero, codes, hcodes⟩
  · rintro ⟨hconflict, hzero, codes, hcodes⟩
    exact ⟨_, hconflict, hzero, codes, hcodes, rfl⟩

/-! ## Adjusted profiles -/

def adjustCapabilities (o : Overrides) (s : CapabilitySet) : CapabilitySet :=
  let listed := (s.insertMany o.enable).eraseMany o.disable
  if o.triggersForAutoAssign = some true then listed.insert .autoAssign else listed

def adjustNaming (o : Overrides) (n : Naming) : Naming where
  maxTableNameLength := o.maxTableNameLength.getD n.maxTableNameLength
  maxColumnNameLength := o.maxColumnNameLength.getD n.maxColumnNameLength
  maxConstraintNameLength := o.maxConstraintNameLength.getD n.maxConstraintNameLength
  maxIndexNameLength := o.maxIndexNameLength.getD n.maxIndexNameLength
  maxSequenceNameLength := o.maxSequenceNameLength.getD n.maxSequenceNameLength
  maxAutoAssignNameLength := o.maxAutoAssignNameLength.getD n.maxAutoAssignNameLength
  reservedWords := n.reservedWords.insertMany (o.reservedWords.map Text.upperAscii)
  constraintNaming := o.constraintNaming.getD n.constraintNaming
  delimitIdentifiers := o.delimitIdentifiers.getD n.delimitIdentifiers
  quoteStyle := o.quoteStyle.getD n.quoteStyle

theorem adjust_eq (o : Overrides) (codes : List (TypeCode × String)) (p : Profile)
    : o.adjust codes p
        =
      { p with
        joinSyntax := o.joinSyntax.getD p.joinSyntax
        rangePosition := o.rangePosition.getD p.rangePosition
        capabilities := o.adjustCapabilities p.capabilities
        requirements.triggersForAutoAssign :=
          o.triggersForAutoAssign.getD p.requirements.triggersForAutoAssign
        clauses.forUpdate := o.forUpdateClause.or p.clauses.forUpdate
        types := p.types.setMany codes
        naming := o.adjustNaming p.naming } := by
  unfold adjust adjustCapabilities
  cases o.triggersForAutoAssign with
  | none => rfl
  | some enabled => cases enabled <;> rfl

theorem mem_adjustCapabilities {s : CapabilitySet} {c : Capability}
    : c ∈ o.adjustCapabilities s
        ↔ c ∉ o.disable ∧ (c ∈ o.enable ∨ c ∈ s)
          ∨ c = .autoAssign ∧ o.triggersForAutoAssign = some true := by
  unfold adjustCapabilities
  split
  · next h => simp [h, or_comm]
  · next h => simp [h]

theorem adjustCapabilities_adjustCapabilities (s : CapabilitySet)
    : o.adjustCapabilities (o.adjustCapabilities s) = o.adjustCapabilities s := by
  ext c
  simp only [mem_adjustCapabilities]
  grind

theorem adjustNaming_adjustNaming (n : Naming)
    : o.adjustNaming (o.adjustNaming n) = o.adjustNaming n := by
  have hwords : ∀ s : WordSet, ∀ ws, (s.insertMany ws).insertMany ws = s.insertMany ws :=
    fun s ws => WordSet.insertMany_of_mem fun w hw => WordSet.mem_insertMany.mpr (.inl hw)
  simp only [adjustNaming, getD_getD, hwords]

theorem adjust_adjust (o : Overrides) (codes : List (TypeCode × String)) (p : Profile)
    : o.adjust codes (o.adjust codes p) = o.adjust codes p := by
  simp only [adjust_eq, getD_getD, adjustCapabilities_adjustCapabilities, adjustNaming_adjustNaming,
    TypeNames.setMany_setMany, ← Option.or_assoc, Option.or_self]

/-! ## Adjusting a profile -/

/--
A profile has the capabilities that are listed to be enabled and those of the profile before that
are not listed to be disabled. Triggers for auto-assigned columns make these available, whatever is
listed.
-/
theorem supports_of_apply {b p : Profile} (h : o.apply b = .ok p) (c : Capability)
    : p.supports c = true
        ↔ c ∈ o.enable ∨ b.supports c = true ∧ c ∉ o.disable
          ∨ c = .autoAssign ∧ o.triggersForAutoAssign = some true := by
  obtain ⟨hconflict, _, codes, _, rfl⟩ := apply_eq_ok_iff.mp h
  have henabled : c ∈ o.enable → c ∉ o.disable := hconflict c
  simp only [Profile.supports, adjust_eq, decide_eq_true_eq, mem_adjustCapabilities]
  grind

-- One of the listed capabilities is new, the other one was there.
theorem supports_of_apply_listed
    : let o : Overrides :=
        { enable := [.autoAssign], disable := [.having], maxColumnNameLength := some 28
          triggersForAutoAssign := some false }
      ∃ p, o.apply Vendor.oracle.profile = .ok p
        ∧ (p.supports .autoAssign = true ∧ Vendor.oracle.profile.supports .autoAssign = false)
        ∧ (p.supports .having = false ∧ Vendor.oracle.profile.supports .having = true) := by
  intro o
  have happly : o.apply Vendor.oracle.profile = .ok (o.adjust [] Vendor.oracle.profile) := rfl
  have hsupports := supports_of_apply happly
  refine ⟨_, happly, ⟨(hsupports .autoAssign).mpr ?_, by decide⟩, ?_, by decide⟩
  · exact .inl (by decide)
  · rw [Bool.eq_false_iff, ne_eq, hsupports]
    decide

-- Nothing is listed, and triggers are asked for.
theorem supports_of_apply_triggers
    : let o : Overrides := { triggersForAutoAssign := some true }
      let b := Vendor.oracle.profile
      ∃ p, o.apply b = .ok p ∧ p.supports .autoAssign = true
        ∧ ¬ (.autoAssign ∈ o.enable ∨ b.supports .autoAssign = true ∧ .autoAssign ∉ o.disable) := by
  intro o b
  exact ⟨o.adjust [] b, rfl, by decide, by decide⟩

/--
Adjustments cannot be made if they contradict each other, if they leave no room for a name, or if
they name a type that there is not. Otherwise they can be made to any profile, making them once more
changes nothing, and there is nothing to be made if none is given.
-/
theorem apply_idempotent (o : Overrides) (b : Profile)
    : ((∃ e, o.apply b = .error e)
          ↔ (∃ c ∈ o.enable, c ∈ o.disable) ∨ (∃ kind, o.maxNameLength? kind = some 0)
            ∨ ∃ x ∈ o.typeNames, ∀ code : TypeCode,
                TypeCode.plainName (Text.trim x.1) ≠ TypeCode.plainName code.name)
        ∧ (∀ p, o.apply b = .ok p → o.apply p = .ok p)
        ∧ Overrides.apply {} b = .ok b
        ∧ ∀ (s : Settings) (env : Environment),
            s.profile env
              =
            ((s.dialect.base env).mapError .unset >>= fun base =>
              (s.dialect.overrides.apply base).mapError .invalid) := by
  have hempty : ∀ b, Overrides.apply {} b = .ok b := fun _ => rfl
  refine ⟨?_, ?_, hempty b, ?_⟩
  · have herror : (∃ e, o.apply b = .error e) ↔ ¬ ∃ p, o.apply b = .ok p := by
      cases o.apply b <;> simp
    rw [herror, o.exists_apply_iff b]
    grind
  · intro p h
    obtain ⟨hconflict, hzero, codes, hcodes, rfl⟩ := apply_eq_ok_iff.mp h
    exact apply_eq_ok_iff.mpr ⟨hconflict, hzero, codes, hcodes, o.adjust_adjust codes b⟩
  · intro s env
    unfold Settings.profile
    cases (s.dialect.base env).mapError SettingsError.unset with
    | error e => rfl
    | ok base =>
      by_cases h : s.dialect.overrides = {}
      · rw [h]
        rfl
      · have hisEmpty : s.dialect.overrides.isEmpty = false := by simp [isEmpty, h]
        rw [hisEmpty]
        rfl

-- A type is called by two names, of which the one that is sorted later counts.
theorem apply_idempotent_spellings
    : let o : Overrides :=
        { disable := [.autoAssign], maxColumnNameLength := some 28
          reservedWords := ["level", "Size"]
          typeNames := [("varchar", "VARCHAR2"), ("VAR_CHAR", "CLOB")]
          triggersForAutoAssign := some true }
      let b : Profile := { Vendor.oracle.profile with naming.reservedWords := .ofList ["LEVEL"] }
      ∃ p, o.apply b = .ok p ∧ o.apply p = .ok p
        ∧ p.types.names .varChar = some "VARCHAR2" ∧ p.maxNameLength .column = 28
        ∧ p.naming.reservedWords.toList = ["LEVEL", "SIZE"] := by
  intro o b
  obtain ⟨codes, hcodes, hsorted⟩ : ∃ codes, o.typeCodes = .ok codes
      ∧ codes = [(.varChar, "CLOB"), (.varChar, "VARCHAR2")] := by
    have h : o.typeCodes.toOption = some [(.varChar, "CLOB"), (.varChar, "VARCHAR2")] := by
      decide +kernel
    cases hcodes : o.typeCodes with
    | error e => simp [hcodes, Except.toOption] at h
    | ok codes => exact ⟨codes, rfl, by simpa [hcodes, Except.toOption] using h⟩
  subst hsorted
  have happly := (apply_eq_ok_iff (p := b)).mpr ⟨by decide, by decide, _, hcodes, rfl⟩
  obtain ⟨_, hagain, _⟩ := apply_idempotent o b
  exact ⟨_, happly, hagain _ happly, by decide +kernel, rfl, by decide +kernel⟩

end Overrides
end SqlDialect
