import SqlDialect.Ddl.Table
import SqlDialect.Proofs.Identifier.ReservedWords
import SqlDialect.Proofs.Identifier.Shortening

/-!
This module contains the names of the sequences and triggers that fill auto-assigned columns. The
two names for a column differ in their last three characters only. The names for two columns of a
table are different as long as they are not shortened; nothing is done about those that become the
same.
-/

namespace SqlDialect

/-! ## Names up to case -/

namespace Text

variable {s t u v : String}

theorem upperAscii_append (s t : String) : upperAscii (s ++ t) = upperAscii s ++ upperAscii t := by
  simp [upperAscii]

theorem length_upperAscii (s : String) : (upperAscii s).length = s.length := by
  rw [← String.length_toList, toList_upperAscii, List.length_map, String.length_toList]

theorem eqIgnoringCase_comm (s t : String) : eqIgnoringCase s t = eqIgnoringCase t s :=
  BEq.comm

theorem length_eq_of_eqIgnoringCase (h : eqIgnoringCase s t = true) : s.length = t.length := by
  rw [← length_upperAscii s, eqIgnoringCase_iff.mp h, length_upperAscii]

theorem back?_upperAscii (s : String) : (upperAscii s).back? = s.back?.map Char.toUpper := by
  rw [String.back?_eq, String.back?_eq, toList_upperAscii, List.getLast?_map]

theorem eqIgnoringCase_append_left (h : eqIgnoringCase (s ++ t) (s ++ u) = true)
    : eqIgnoringCase t u = true := by
  rw [eqIgnoringCase_iff, upperAscii_append, upperAscii_append] at h
  rw [eqIgnoringCase_iff]
  exact (String.append_right_inj _).mp h

theorem eqIgnoringCase_append (hlength : t.length = v.length)
    (h : eqIgnoringCase (s ++ t) (u ++ v) = true)
    : eqIgnoringCase s u = true ∧ eqIgnoringCase t v = true := by
  simp only [eqIgnoringCase_iff, ← String.toList_inj, toList_upperAscii, String.toList_append,
    List.map_append] at h ⊢
  apply List.append_inj' h
  rw [List.length_map, List.length_map, String.length_toList, String.length_toList, hlength]

end Text

/-! ## Fitted names -/

namespace Profile

open Identifier

variable {p : Profile} {name : String} {max : Nat}

def keeps (p : Profile) (name : String) (max : Nat) : Bool :=
  name.length + (if p.isReserved name then 1 else 0) ≤ max

theorem fit_of_keeps (h : p.keeps name max = true)
    : p.fit name max = if p.isReserved name then name ++ "0" else name := by
  rw [keeps, decide_eq_true_eq] at h
  unfold fit
  dsimp only
  rw [shorten_of_length_le (by omega)]
  cases hreserved : p.isReserved name with
  | false => rfl
  | true =>
    rw [hreserved, if_pos rfl] at h
    rw [if_pos rfl, if_pos rfl, shorten_of_length_le (by omega)]

theorem min_le_length_fit (p : Profile) (name : String) (max : Nat)
    : min name.length max ≤ (p.fit name max).length := by
  unfold fit
  dsimp only
  split
  · rw [String.length_append, length_shorten, length_shorten]
    have hzero : "0".length = 1 := rfl
    omega
  · rw [length_shorten]

theorem keeps_of_length_fit_lt (h : (p.fit name max).length < max) : p.keeps name max = true := by
  have hlength := p.min_le_length_fit name max
  have hshort : shorten name max = name := shorten_of_length_le (by omega)
  unfold fit at h
  dsimp only at h
  rw [hshort] at h
  rw [keeps, decide_eq_true_eq]
  cases hreserved : p.isReserved name with
  | true =>
    rw [hreserved, if_pos rfl, String.length_append, length_shorten] at h
    have hzero : "0".length = 1 := rfl
    rw [if_pos rfl]
    omega
  | false =>
    rw [hreserved] at h
    exact Nat.le_of_lt h

theorem back?_fit (p : Profile) (name : String) (hmax : 3 ≤ max)
    : (p.fit name max).back? = some '0' ∨ (p.fit name max).back? = name.back? := by
  unfold fit
  dsimp only
  split
  · exact .inl (by simp [String.back?_eq])
  · exact .inr (back?_shorten (by omega))

end Profile

/-! ## The names for a column -/

namespace AutoAssignNames

open Text (eqIgnoringCase)

variable {p : Profile} {t : Table} {c d : Column} {sequence : String}

def wanted (t : Table) (c : Column) : String := t.name ++ "_" ++ c.name ++ "_SEQ"

def ofSequence (sequence : String) : AutoAssignNames :=
  let cs := sequence.toList
  ⟨sequence, String.ofList (cs.take (cs.length - 3) ++ "TRG".toList)⟩

def fitted (p : Profile) (t : Table) (c : Column) : AutoAssignNames :=
  ofSequence (p.fit (wanted t c) (p.maxNameLength .autoAssign))

theorem back?_wanted (t : Table) (c : Column) : (wanted t c).back? = some 'Q' := by
  simp [wanted, String.back?_eq, List.getLast?_cons]

theorem lt_length_wanted (t : Table) (c : Column) : 4 < (wanted t c).length := by
  have hunderscore : "_".length = 1 := rfl
  have htail : "_SEQ".length = 4 := rfl
  simp only [wanted, String.length_append]
  omega

-- No quotation ends in the last letter of the name.
theorem delimitedBody?_wanted (p : Profile) (t : Table) (c : Column)
    : p.delimitedBody? (wanted t c) = none := by
  have hclosing : p.naming.quoteStyle.closing ≠ 'Q' := by
    cases p.naming.quoteStyle <;> decide
  cases hbody : p.delimitedBody? (wanted t c) with
  | none => rfl
  | some body =>
    have hback := back?_wanted t c
    rw [Profile.eq_delimit_of_delimitedBody? hbody, String.back?_eq] at hback
    simp [Profile.delimit, List.getLast?_cons, hclosing] at hback

theorem ofColumn_eq (p : Profile) (t : Table) (c : Column)
    : ofColumn p t c = .ok (fitted p t c) := by
  have hrepair : p.repairName (wanted t c) .autoAssign .empty false
      = .ok (p.fit (wanted t c) (p.maxNameLength .autoAssign)) :=
    Profile.repairName_of_plain (delimitedBody?_wanted p t c)
  change p.repairName (wanted t c) .autoAssign .empty false >>= _ = _
  rw [hrepair]
  rfl

theorem ofSequence_append {stem tail : String} (h : tail.length = 3)
    : ofSequence (stem ++ tail) = ⟨stem ++ tail, stem ++ "TRG"⟩ := by
  have htail : tail.toList.length = 3 := by rw [String.length_toList, h]
  have hstem : stem.toList.length + tail.toList.length - 3 = stem.toList.length := by omega
  rw [ofSequence, String.toList_append, List.length_append, hstem, List.take_left',
    String.ofList_append, String.ofList_toList, String.ofList_toList]
  rfl

theorem exists_stem (h : 3 ≤ sequence.length)
    : ∃ stem tail : String, tail.length = 3 ∧ sequence = stem ++ tail
        ∧ (ofSequence sequence).trigger = stem ++ "TRG" := by
  have hlength := sequence.length_toList
  let stem : String := .ofList (sequence.toList.take (sequence.length - 3))
  let tail : String := .ofList (sequence.toList.drop (sequence.length - 3))
  have htail : tail.length = 3 := by
    rw [String.length_ofList, List.length_drop]
    omega
  have hsequence : sequence = stem ++ tail := by
    rw [← String.ofList_append, List.take_append_drop, String.ofList_toList]
  refine ⟨stem, tail, htail, hsequence, ?_⟩
  rw [hsequence, ofSequence_append htail]

theorem length_trigger (h : 3 ≤ sequence.length)
    : (ofSequence sequence).trigger.length = sequence.length := by
  obtain ⟨stem, tail, htail, hsequence, htrigger⟩ := exists_stem h
  rw [htrigger, hsequence, String.length_append, String.length_append, htail]
  rfl

theorem le_length_fitted (hlimit : 3 ≤ p.maxNameLength .autoAssign)
    : 3 ≤ (fitted p t c).sequence.length := by
  have hlength := p.min_le_length_fit (wanted t c) (p.maxNameLength .autoAssign)
  have hwanted := lt_length_wanted t c
  change 3 ≤ (p.fit _ _).length
  omega

theorem back?_trigger (sequence : String) : (ofSequence sequence).trigger.back? = some 'G' := by
  simp [ofSequence, String.back?_eq]

-- The last letter of a name is never given up, but a zero may follow it.
theorem fitted_ne (hlimit : 3 ≤ p.maxNameLength .autoAssign)
    : eqIgnoringCase (fitted p t c).sequence (fitted p t c).trigger = false := by
  rw [Bool.eq_false_iff, ne_eq, Text.eqIgnoringCase_iff]
  intro heq
  have hback := congrArg String.back? heq
  rw [Text.back?_upperAscii, Text.back?_upperAscii, fitted, back?_trigger] at hback
  change (p.fit _ _).back?.map _ = _ at hback
  rcases p.back?_fit (wanted t c) hlimit with hzero | hlast
  · rw [hzero] at hback
    exact absurd hback (by decide)
  · rw [hlast, back?_wanted] at hback
    exact absurd hback (by decide)

/--
The sequence and the trigger for a column can always be named. Both names fit, are equally long,
have all but their last three characters in common, and are different even if case is ignored.
-/
theorem ofColumn_paired (p : Profile) (t : Table) (c : Column)
    (hlimit : 3 ≤ p.maxNameLength .autoAssign)
    : ∃ names, ofColumn p t c = .ok names
        ∧ names.sequence.length ≤ p.maxNameLength .autoAssign
        ∧ names.trigger.length ≤ p.maxNameLength .autoAssign
        ∧ names.sequence.length = names.trigger.length
        ∧ (∃ stem tail : String, tail.length = 3 ∧ names.sequence = stem ++ tail
          ∧ names.trigger = stem ++ "TRG")
        ∧ eqIgnoringCase names.sequence names.trigger = false := by
  have hlength : 3 ≤ (fitted p t c).sequence.length := le_length_fitted hlimit
  have hfits : (fitted p t c).sequence.length ≤ p.maxNameLength .autoAssign :=
    p.length_fit_le (wanted t c) (by omega)
  have htrigger : (fitted p t c).trigger.length = (fitted p t c).sequence.length :=
    length_trigger hlength
  refine ⟨fitted p t c, ofColumn_eq p t c, hfits, ?_, htrigger.symm, exists_stem hlength,
    fitted_ne hlimit⟩
  rw [htrigger]
  exact hfits

-- With room for three characters only, nothing is left of the stem. The zero for a reserved word
-- takes the place of one more character.
theorem ofColumn_paired_reserved
    : let naming := { Vendor.generic.profile.naming.withMaxLengths 3 with
        reservedWords := .ofList ["T_Q"] }
      let p := { Vendor.generic.profile with naming }
      let t : Table := { name := "T" }
      let c : Column := { name := "C" }
      let names : AutoAssignNames := ⟨"TQ0", "TRG"⟩
      3 ≤ p.maxNameLength .autoAssign
        ∧ ofColumn p t c = .ok names
        ∧ names.sequence.length ≤ p.maxNameLength .autoAssign
        ∧ names.trigger.length ≤ p.maxNameLength .autoAssign
        ∧ names.sequence.length = names.trigger.length
        ∧ (∃ stem tail : String, tail.length = 3 ∧ names.sequence = stem ++ tail
          ∧ names.trigger = stem ++ "TRG")
        ∧ eqIgnoringCase names.sequence names.trigger = false := by
  intro naming p t c names
  have hlimit : 3 ≤ p.maxNameLength .autoAssign := by decide
  have hnames : ofColumn p t c = .ok names := by decide +kernel
  obtain ⟨names', hnames', hpaired⟩ := ofColumn_paired p t c hlimit
  rw [hnames] at hnames'
  cases hnames'
  exact ⟨hlimit, hnames, hpaired⟩

/-! ## The names for two columns -/

theorem length_fitted (hlimit : 3 ≤ p.maxNameLength .autoAssign)
    : (fitted p t c).trigger.length = (fitted p t c).sequence.length :=
  length_trigger (le_length_fitted hlimit)

/--
Whether all of the name of a column, and of its table, stands in the name of its sequence.
-/
def kept (p : Profile) (t : Table) (c : Column) : Bool :=
  p.keeps (wanted t c) (p.maxNameLength .autoAssign)

def keptEnds : (reserved : Bool) → AutoAssignNames
  | true => ⟨"SEQ0", "STRG"⟩
  | false => ⟨"_SEQ", "_TRG"⟩

def keptBetween (reserved : Bool) : String := if reserved then "_" else ""

theorem fitted_of_kept (h : kept p t c = true)
    : let reserved := p.isReserved (wanted t c)
      let stem := t.name ++ "_" ++ (c.name ++ keptBetween reserved)
      fitted p t c
        =
      ⟨stem ++ (keptEnds reserved).sequence, stem ++ (keptEnds reserved).trigger⟩ := by
  intro reserved stem
  rw [fitted, Profile.fit_of_keeps h]
  unfold stem reserved
  cases p.isReserved (wanted t c) with
  | true =>
    have hsplit : wanted t c ++ "0" = t.name ++ "_" ++ c.name ++ "_S" ++ "EQ0" := by
      simp [wanted, ← String.toList_inj]
    rw [if_pos rfl, hsplit, ofSequence_append rfl]
    simp [← String.toList_inj, keptBetween, keptEnds]
  | false =>
    have hsplit : wanted t c = t.name ++ "_" ++ c.name ++ "_" ++ "SEQ" := by
      simp [wanted, ← String.toList_inj]
    rw [if_neg (by decide), hsplit, ofSequence_append rfl]
    simp [← String.toList_inj, keptBetween, keptEnds]

theorem eqIgnoringCase_of_ends (ends : Bool → String) {r r' : Bool}
    (hlength : ∀ r r', (ends r).length = (ends r').length)
    (hends : ∀ r r', eqIgnoringCase (ends r) (ends r') = true → r = r')
    (h : eqIgnoringCase (t.name ++ "_" ++ (c.name ++ keptBetween r) ++ ends r)
      (t.name ++ "_" ++ (d.name ++ keptBetween r') ++ ends r') = true)
    : eqIgnoringCase c.name d.name = true := by
  obtain ⟨hstem, hend⟩ := Text.eqIgnoringCase_append (hlength r r') h
  obtain rfl := hends r r' hend
  exact (Text.eqIgnoringCase_append rfl (Text.eqIgnoringCase_append_left hstem)).1

theorem fitted_distinct (hc : kept p t c = true) (hd : kept p t d = true)
    (hname : eqIgnoringCase c.name d.name = false)
    : eqIgnoringCase (fitted p t c).sequence (fitted p t d).sequence = false
        ∧ eqIgnoringCase (fitted p t c).trigger (fitted p t d).trigger = false := by
  rw [Bool.eq_false_iff] at hname
  rw [fitted_of_kept hc, fitted_of_kept hd, Bool.eq_false_iff, Bool.eq_false_iff]
  constructor
  · intro heq
    apply hname
    exact eqIgnoringCase_of_ends (fun r => (keptEnds r).sequence) (by decide) (by decide) heq
  · intro heq
    apply hname
    exact eqIgnoringCase_of_ends (fun r => (keptEnds r).trigger) (by decide) (by decide) heq

/--
The database takes two of the names for one.
-/
def Clash (m n : AutoAssignNames) : Prop :=
  eqIgnoringCase m.sequence n.sequence = true ∨ eqIgnoringCase m.trigger n.trigger = true

theorem Clash.symm {m n : AutoAssignNames} (h : m.Clash n) : n.Clash m := by
  unfold Clash
  rw [Text.eqIgnoringCase_comm n.sequence, Text.eqIgnoringCase_comm n.trigger]
  exact h

-- A name with room left was not shortened, and one of the same length was not either.
theorem limit_le_of_clash (hname : eqIgnoringCase c.name d.name = false)
    (h : (fitted p t c).Clash (fitted p t d))
    : p.maxNameLength .autoAssign ≤ (fitted p t c).sequence.length := by
  apply Nat.le_of_not_lt
  intro hroom
  have hlimit : 3 ≤ p.maxNameLength .autoAssign := by
    have hlength := p.min_le_length_fit (wanted t c) (p.maxNameLength .autoAssign)
    have hwanted := lt_length_wanted t c
    change (p.fit _ _).length < _ at hroom
    omega
  have hlength : (fitted p t c).sequence.length = (fitted p t d).sequence.length := by
    rcases h with hsequence | htrigger
    · exact Text.length_eq_of_eqIgnoringCase hsequence
    · rw [← length_fitted hlimit, Text.length_eq_of_eqIgnoringCase htrigger, length_fitted hlimit]
  have hc : kept p t c = true := Profile.keeps_of_length_fit_lt hroom
  have hd : kept p t d = true := Profile.keeps_of_length_fit_lt (hlength ▸ hroom)
  obtain ⟨hsequence, htrigger⟩ := fitted_distinct hc hd hname
  rcases h with h | h
  · rw [hsequence] at h
    cases h
  · rw [htrigger] at h
    cases h

end AutoAssignNames

/-! ## The names in a table -/

namespace DdlStatement

def createdSequence? : DdlStatement → Option String
  | .createSequence sequence _ _ => some sequence.name
  | .createAssignSequence sequence => some sequence
  | _ => none

def createdTrigger? : DdlStatement → Option String
  | .createAssignTrigger trigger _ _ _ => some trigger
  | _ => none

end DdlStatement

namespace Table

open AutoAssignNames (fitted)
open Text (eqIgnoringCase)

variable {t : Table} {p : Profile} {statements : List DdlStatement}

theorem mapM_ofColumn (t : Table) (p : Profile) (columns : List Column)
    : columns.mapM (AutoAssignNames.ofColumn p t) = .ok (columns.map (fitted p t)) :=
  Compile.mapM_eq_ok_map (AutoAssignNames.ofColumn_eq p t)

theorem createAutoAssign_eq (t : Table) (p : Profile)
    : t.createAutoAssign p
        =
      .ok (if p.requirements.triggersForAutoAssign then
        t.autoAssignedColumns.flatMap fun c => (fitted p t c).create t c
      else
        []) := by
  have hmap : t.autoAssignedColumns.mapM (fun c => do
      return (← AutoAssignNames.ofColumn p t c).create t c)
        = .ok (t.autoAssignedColumns.map fun c => (fitted p t c).create t c) := by
    apply Compile.mapM_eq_ok_map
    intro c
    rw [AutoAssignNames.ofColumn_eq]
    rfl
  rw [createAutoAssign, hmap, List.flatMap_def]
  split
  · rfl
  · rfl

theorem filterMap_createdSequence? (columns : List Column)
    : (columns.flatMap fun c => (fitted p t c).create t c).filterMap (·.createdSequence?)
        =
      (columns.map (fitted p t)).map (·.sequence) := by
  induction columns with
  | nil => rfl
  | cons c columns ih =>
    rw [List.flatMap_cons, List.filterMap_append, ih]
    rfl

theorem filterMap_createdTrigger? (columns : List Column)
    : (columns.flatMap fun c => (fitted p t c).create t c).filterMap (·.createdTrigger?)
        =
      (columns.map (fitted p t)).map (·.trigger) := by
  induction columns with
  | nil => rfl
  | cons c columns ih =>
    rw [List.flatMap_cons, List.filterMap_append, ih]
    rfl

theorem exists_of_create (h : t.create p = .ok statements)
    : ∃ uniques columns rest,
        (t.uniques.filter (·.isSupported p)).mapM (·.constraint p) = .ok uniques
        ∧ t.columns.mapM (t.declareColumn p · false) = .ok columns
        ∧ t.createAutoAssign p = .ok rest
        ∧ statements = .createTable t.objectName columns
            ((t.primaryKeyConstraint? p).toList ++ uniques) :: rest := by
  obtain ⟨_, _, h⟩ := Compile.bind_eq_ok_iff.mp h
  obtain ⟨uniques, huniques, h⟩ := Compile.bind_eq_ok_iff.mp h
  obtain ⟨columns, hcolumns, h⟩ := Compile.bind_eq_ok_iff.mp h
  obtain ⟨rest, hrest, h⟩ := Compile.bind_eq_ok_iff.mp h
  cases h
  exact ⟨uniques, columns, rest, huniques, hcolumns, hrest, rfl⟩

theorem created_of_create (htriggers : p.requirements.triggersForAutoAssign = true)
    (h : t.create p = .ok statements)
    : let names := t.autoAssignedColumns.map (fitted p t)
      statements.filterMap (·.createdSequence?) = names.map (·.sequence)
        ∧ statements.filterMap (·.createdTrigger?) = names.map (·.trigger) := by
  obtain ⟨uniques, columns, rest, _, _, hrest, rfl⟩ := exists_of_create h
  rw [createAutoAssign_eq, if_pos htriggers] at hrest
  cases hrest
  exact ⟨filterMap_createdSequence? _, filterMap_createdTrigger? _⟩

/--
A table gets a sequence and a trigger for each of its auto-assigned columns. If the names of its
columns are different, the sequences of two columns, or their triggers, have one name only if there
is no room left in it. So all names are different if none of them is shortened.
-/
theorem create_assigns (htriggers : p.requirements.triggersForAutoAssign = true)
    (hcolumns : t.columns.Pairwise fun c d => eqIgnoringCase c.name d.name = false)
    (h : t.create p = .ok statements)
    : let limit := p.maxNameLength .autoAssign
      let sequences := statements.filterMap (·.createdSequence?)
      let triggers := statements.filterMap (·.createdTrigger?)
      ∃ names, t.autoAssignedColumns.mapM (AutoAssignNames.ofColumn p t) = .ok names
        ∧ sequences = names.map (·.sequence)
        ∧ triggers = names.map (·.trigger)
        ∧ names.Pairwise (fun m n =>
          m.Clash n → limit ≤ m.sequence.length ∧ limit ≤ n.sequence.length)
        ∧ ((∀ c ∈ t.autoAssignedColumns, AutoAssignNames.kept p t c = true) →
          sequences.Pairwise (fun s s' => eqIgnoringCase s s' = false)
          ∧ triggers.Pairwise fun s s' => eqIgnoringCase s s' = false) := by
  intro limit sequences triggers
  obtain ⟨hsequences, htriggers⟩ := created_of_create htriggers h
  have hassigned : t.autoAssignedColumns.Pairwise
      fun c d => eqIgnoringCase c.name d.name = false := hcolumns.filter _
  refine ⟨_, mapM_ofColumn t p _, hsequences, htriggers, ?_, ?_⟩
  · rw [List.pairwise_map]
    apply hassigned.imp
    intro c d hname hclash
    have hname' : eqIgnoringCase d.name c.name = false := by
      rw [Text.eqIgnoringCase_comm]
      exact hname
    exact ⟨AutoAssignNames.limit_le_of_clash hname hclash,
      AutoAssignNames.limit_le_of_clash hname' hclash.symm⟩
  · intro hkept
    have hdistinct : t.autoAssignedColumns.Pairwise fun c d =>
        eqIgnoringCase (fitted p t c).sequence (fitted p t d).sequence = false
        ∧ eqIgnoringCase (fitted p t c).trigger (fitted p t d).trigger = false := by
      apply hassigned.imp_of_mem
      intro c d hc hd hname
      exact AutoAssignNames.fitted_distinct (hkept c hc) (hkept d hd) hname
    unfold sequences triggers
    rw [hsequences, htriggers]
    simp only [List.pairwise_map]
    exact ⟨hdistinct.imp And.left, hdistinct.imp And.right⟩

-- A name that takes up all the room and a reserved one, which gets a zero, are both whole.
theorem create_assigns_kept
    : let naming := { Vendor.generic.profile.naming.withMaxLengths 8 with
        reservedWords := .ofList ["T_A_SEQ"] }
      let p := { Vendor.generic.profile with naming }.withTriggerAutoAssign true
      let t : Table := { name := "T"
                         columns := [{ name := "a", autoAssigned := true }, { name := "b" },
                           { name := "A_", autoAssigned := true }] }
      let sequences := ["T_a_SEQ0", "T_A__SEQ"]
      let triggers := ["T_a_STRG", "T_A__TRG"]
      p.requirements.triggersForAutoAssign = true
        ∧ t.columns.Pairwise (fun c d => eqIgnoringCase c.name d.name = false)
        ∧ ∃ statements, t.create p = .ok statements
          ∧ statements.filterMap (·.createdSequence?) = sequences
          ∧ statements.filterMap (·.createdTrigger?) = triggers
          ∧ (∀ c ∈ t.autoAssignedColumns, AutoAssignNames.kept p t c = true)
          ∧ sequences.Pairwise (fun s s' => eqIgnoringCase s s' = false)
          ∧ triggers.Pairwise fun s s' => eqIgnoringCase s s' = false := by
  intro naming p t sequences triggers
  have htriggers : p.requirements.triggersForAutoAssign = true := rfl
  have hcolumns : t.columns.Pairwise fun c d => eqIgnoringCase c.name d.name = false := by
    decide +kernel
  have hkept : ∀ c ∈ t.autoAssignedColumns, AutoAssignNames.kept p t c = true := by decide +kernel
  obtain ⟨statements, hstatements, hnames⟩ :=
    Compile.exists_of_toOption (x := t.create p) (b := (sequences, triggers))
      (f := fun ss => (ss.filterMap (·.createdSequence?), ss.filterMap (·.createdTrigger?)))
      (by decide +kernel)
  obtain ⟨hsequences, htriggers'⟩ := Prod.mk.inj hnames
  obtain ⟨names, _, _, _, _, hdistinct⟩ := create_assigns htriggers hcolumns hstatements
  rw [hsequences, htriggers'] at hdistinct
  exact ⟨htriggers, hcolumns, statements, hstatements, hsequences, htriggers', hkept,
    hdistinct hkept⟩

-- The two columns differ in vowels only, and the vowels are given up.
theorem create_assigns_clashing
    : let p := Vendor.oracle.profile.withTriggerAutoAssign true
      let t : Table := { name := "CUSTOMER_ACCOUNT_RESERVATIONS"
                         columns := [{ name := "SITE_ID", autoAssigned := true },
                           { name := "SEAT_ID", autoAssigned := true }] }
      let sequence := "CUSTMR_CCOUNT_RSRVTONS_ST_D_SQ"
      let trigger := "CUSTMR_CCOUNT_RSRVTONS_ST_DTRG"
      p.requirements.triggersForAutoAssign = true
        ∧ t.columns.Pairwise (fun c d => eqIgnoringCase c.name d.name = false)
        ∧ ∃ statements, t.create p = .ok statements
          ∧ statements.filterMap (·.createdSequence?) = [sequence, sequence]
          ∧ statements.filterMap (·.createdTrigger?) = [trigger, trigger] := by
  intro p t sequence trigger
  have hreserved : p.isReserved sequence = false := by
    rw [Bool.eq_false_iff, ne_eq]
    change ¬ Vendor.oracle.profile.isReserved sequence = true
    rw [Vendor.isReserved_iff]
    decide +kernel
  have hfit : ∀ c ∈ t.autoAssignedColumns,
      p.fit (AutoAssignNames.wanted t c) (p.maxNameLength .autoAssign) = sequence := by
    have hshort : ∀ c ∈ t.autoAssignedColumns,
        Identifier.shorten (AutoAssignNames.wanted t c) (p.maxNameLength .autoAssign)
          = sequence := by
      decide +kernel
    intro c hc
    rw [Profile.fit, hshort c hc, hreserved]
    rfl
  have hfitted : ∀ c ∈ t.autoAssignedColumns, fitted p t c = ⟨sequence, trigger⟩ := by
    have hpair : AutoAssignNames.ofSequence sequence = ⟨sequence, trigger⟩ := by decide +kernel
    intro c hc
    rw [fitted, hfit c hc, hpair]
  have hnames : t.autoAssignedColumns.map (fitted p t)
      = [⟨sequence, trigger⟩, ⟨sequence, trigger⟩] := by
    rw [List.map_congr_left hfitted]
    rfl
  obtain ⟨statements, hstatements⟩ : ∃ statements, t.create p = .ok statements := by
    rw [← Compile.failure?_eq_none_iff]
    decide +kernel
  obtain ⟨hsequences, htriggers⟩ := created_of_create rfl hstatements
  rw [hnames] at hsequences htriggers
  exact ⟨rfl, by decide +kernel, statements, hstatements, hsequences, htriggers⟩

end Table
end SqlDialect
