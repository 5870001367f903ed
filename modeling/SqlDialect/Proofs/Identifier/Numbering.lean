import Mathlib.Data.List.Nodup
import Mathlib.Data.List.Perm.Subperm
import SqlDialect.Proofs.Identifier.Claims
import SqlDialect.Proofs.Text.Numeral

/-!
This module contains the numbers that are tried to make a name unique. The search for a free name
fails only if the name and all names that a number would make of it are taken, and what it finds is
the first free one of them.
-/

namespace SqlDialect

namespace Identifier

theorem digitsValue?_padded (width n : Nat) : Text.digitsValue? (padded width n) = some n := by
  rw [Text.digitsValue?_eq_some_iff]
  constructor
  · intro c hc
    simp only [padded, List.mem_append, List.mem_replicate] at hc
    rcases hc with ⟨_, rfl⟩ | hc
    · rfl
    · exact Nat.isDigit_of_mem_toDigits (by decide) (by decide) hc
  · simp [padded, Nat.ofDigitChars_append]

/-! ## Names with numbers -/

/--
Whether a name is another one with its last `width` characters replaced by `n`, in as many digits.
-/
def IsNumbered (name : String) (width n : Nat) (numbered : String) : Prop :=
  ∃ stem last digits,
    name.toList = stem ++ last ∧ last.length = width
    ∧ numbered.toList = stem ++ digits ∧ digits.length = width
    ∧ Text.digitsValue? digits = some n

def numbered (name : String) (key : Nat × Nat) : String :=
  String.ofList (name.toList.take (name.toList.length - key.1) ++ padded key.1 key.2)

theorem isNumbered_iff {name s : String} {width n : Nat} (hwidth : 0 < width)
    (hlength : width ≤ name.length)
    : IsNumbered name width n s ↔ n < 10 ^ width ∧ s = numbered name (width, n) := by
  have hname := String.length_toList (s := name)
  constructor
  · rintro ⟨stem, last, digits, hstem, hlast, hs, hdigits, hvalue⟩
    have hn : n < 10 ^ width := by
      obtain ⟨hall, rfl⟩ := Text.digitsValue?_eq_some_iff.mp hvalue
      rw [← hdigits]
      exact Text.ofDigitChars_lt hall
    have hpadded : digits = padded width n := by
      apply Text.eq_of_digitsValue?_eq _ hvalue (digitsValue?_padded width n)
      rw [hdigits, length_padded hwidth hn]
    refine ⟨hn, String.toList_inj.mp ?_⟩
    have hleft : stem.length + last.length - width = stem.length := by omega
    simp [numbered, hs, hstem, hpadded, hleft]
  · rintro ⟨hn, rfl⟩
    refine ⟨_, _, _, (List.take_append_drop (name.length - width) _).symm, ?_,
      by rw [numbered, String.toList_ofList, hname], length_padded hwidth hn,
      digitsValue?_padded width n⟩
    rw [List.length_drop]
    omega

/-! ## The search -/

theorem find?_eq_some_iff_of_pairwise {α : Type} {r : α → α → Prop} {l : List α} {p : α → Bool}
    {a : α} (hl : l.Pairwise r) (hr : ∀ a b, r a b → ¬ r b a)
    : l.find? p = some a ↔ a ∈ l ∧ p a = true ∧ ∀ b ∈ l, r b a → p b = false := by
  induction l with
  | nil => simp
  | cons x l ih =>
    obtain ⟨hx, hl⟩ := List.pairwise_cons.mp hl
    rw [List.find?_cons]
    cases hpx : p x with
    | true =>
      simp only [Option.some.injEq]
      constructor
      · rintro rfl
        refine ⟨List.mem_cons_self, hpx, fun b hb hbx => ?_⟩
        rcases List.mem_cons.mp hb with rfl | hb
        · exact absurd hbx (hr _ _ hbx)
        · exact absurd hbx (hr _ _ (hx b hb))
      · rintro ⟨ha, -, hfirst⟩
        rcases List.mem_cons.mp ha with rfl | ha
        · rfl
        · have := hfirst x List.mem_cons_self (hx a ha)
          simp [hpx] at this
    | false =>
      simp only [ih hl]
      constructor
      · rintro ⟨ha, hpa, hfirst⟩
        refine ⟨List.mem_cons_of_mem _ ha, hpa, fun b hb hba => ?_⟩
        rcases List.mem_cons.mp hb with rfl | hb
        · exact hpx
        · exact hfirst b hb hba
      · rintro ⟨ha, hpa, hfirst⟩
        refine ⟨?_, hpa, fun b hb => hfirst b (List.mem_cons_of_mem _ hb)⟩
        rcases List.mem_cons.mp ha with rfl | ha
        · simp [hpa] at hpx
        · exact ha

def keys (length : Nat) : List (Nat × Nat) :=
  (List.range' 1 (min length maxNumberWidth)).flatMap fun width =>
    (List.range' 0 (10 ^ width)).map (width, ·)

def Before (k l : Nat × Nat) : Prop := k.1 < l.1 ∨ k.1 = l.1 ∧ k.2 < l.2

theorem mem_keys_iff {length width n : Nat}
    : (width, n) ∈ keys length ↔ 0 < width ∧ width ≤ min length 18 ∧ n < 10 ^ width := by
  have hmax : maxNumberWidth = 18 := rfl
  simp only [keys, List.mem_flatMap, List.mem_range'_1, List.mem_map, Prod.mk.injEq, hmax]
  constructor
  · rintro ⟨_, hwidth, _, hn, rfl, rfl⟩
    omega
  · rintro ⟨hpos, hle, hn⟩
    exact ⟨width, by omega, n, by omega, rfl, rfl⟩

theorem pairwise_keys (length : Nat) : (keys length).Pairwise Before := by
  unfold keys
  rw [List.pairwise_flatMap]
  constructor
  · intro width _
    rw [List.pairwise_map]
    exact (List.pairwise_lt_range' 1).imp fun h => .inr ⟨rfl, h⟩
  · refine (List.pairwise_lt_range' 1).imp fun h k hk l hl => .inl ?_
    obtain ⟨_, _, rfl⟩ := List.mem_map.mp hk
    obtain ⟨_, _, rfl⟩ := List.mem_map.mp hl
    exact h

theorem firstFree?_eq (taken : String → Bool) (name : String) (width n count : Nat)
    : firstFree? taken (name.toList.take (name.toList.length - width)) width n count
        =
      (((List.range' n count).map (width, ·)).find? (fun key => !taken (numbered name key))).map
        (numbered name) := by
  induction count generalizing n with
  | zero => rfl
  | succ count ih =>
    rw [firstFree?, List.range'_succ, List.map_cons, List.find?_cons]
    change (if taken (numbered name (width, n)) then _ else some (numbered name (width, n))) = _
    cases taken (numbered name (width, n)) with
    | true => simpa using ih (n + 1)
    | false => rfl

theorem makeUnique_eq (taken : String → Bool) (name : String)
    : makeUnique taken name
        =
      if taken name then
        match (keys name.length).find? (fun key => !taken (numbered name key)) with
        | some key => .ok (numbered name key)
        | none => .error (.nameSpaceExhausted name)
      else
        .ok name := by
  have hsearch : (List.range' 1 (min name.toList.length maxNumberWidth)).findSome? (fun width =>
        firstFree? taken (name.toList.take (name.toList.length - width)) width 0 (Nat.pow 10 width))
      = ((keys name.length).find? fun key => !taken (numbered name key)).map (numbered name) := by
    rw [keys, List.find?_flatMap, List.map_findSome?, String.length_toList]
    refine congrArg (List.findSome? · _) (funext fun width => ?_)
    rw [← String.length_toList]
    exact firstFree?_eq taken name width 0 _
  unfold makeUnique
  dsimp only
  rw [hsearch]
  cases (keys name.length).find? fun key => !taken (numbered name key) <;> rfl

theorem makeUnique_eq_error_iff {taken : String → Bool} {name : String} {e : CompileError}
    : makeUnique taken name = .error e
        ↔ e = .nameSpaceExhausted name ∧ taken name = true
          ∧ ∀ width n s, 0 < width → width ≤ min name.length 18 → IsNumbered name width n s →
              taken s = true := by
  have hnone : (keys name.length).find? (fun key => !taken (numbered name key)) = none
      ↔ ∀ width n s, 0 < width → width ≤ min name.length 18 → IsNumbered name width n s →
          taken s = true := by
    simp only [List.find?_eq_none, Prod.forall, mem_keys_iff, Bool.not_eq_true', Bool.not_eq_false]
    constructor
    · intro h width n s hpos hle hs
      obtain ⟨hn, rfl⟩ := (isNumbered_iff hpos (by omega)).mp hs
      exact h width n ⟨hpos, hle, hn⟩
    · rintro h width n ⟨hpos, hle, hn⟩
      exact h width n _ hpos hle ((isNumbered_iff hpos (by omega)).mpr ⟨hn, rfl⟩)
  rw [makeUnique_eq, ← hnone]
  cases taken name with
  | false => simp
  | true =>
    cases (keys name.length).find? fun key => !taken (numbered name key) with
    | none => simp [eq_comm]
    | some key => simp

/--
Whether a name is the first free one of those that a number makes of another name. Numbers with
fewer digits come first, then smaller ones.
-/
def IsFirstFree (taken : String → Bool) (name s : String) : Prop :=
  ∃ width n,
    0 < width ∧ width ≤ min name.length 18 ∧ IsNumbered name width n s ∧ taken s = false
    ∧ ∀ width' n' s', 0 < width' → width' < width ∨ width' = width ∧ n' < n →
        IsNumbered name width' n' s' → taken s' = true

theorem isFirstFree_iff {taken : String → Bool} {name s : String}
    : IsFirstFree taken name s
        ↔ ∃ key, (keys name.length).find? (fun key => !taken (numbered name key)) = some key
            ∧ s = numbered name key := by
  have hasymm : ∀ k l, Before k l → ¬ Before l k := by
    unfold Before
    omega
  simp only [find?_eq_some_iff_of_pairwise (pairwise_keys _) hasymm, Prod.exists, Prod.forall,
    mem_keys_iff, Bool.not_eq_true', Bool.not_eq_false']
  constructor
  · rintro ⟨width, n, hpos, hle, hs, hfree, hfirst⟩
    obtain ⟨hn, rfl⟩ := (isNumbered_iff hpos (by omega)).mp hs
    refine ⟨width, n, ⟨⟨hpos, hle, hn⟩, hfree, ?_⟩, rfl⟩
    rintro width' n' ⟨hpos', hle', hn'⟩ hbefore
    exact hfirst width' n' _ hpos' hbefore ((isNumbered_iff hpos' (by omega)).mpr ⟨hn', rfl⟩)
  · rintro ⟨width, n, ⟨⟨hpos, hle, hn⟩, hfree, hfirst⟩, rfl⟩
    refine ⟨width, n, hpos, hle, (isNumbered_iff hpos (by omega)).mpr ⟨hn, rfl⟩, hfree, ?_⟩
    intro width' n' s' hpos' hbefore hs'
    obtain ⟨hn', rfl⟩ := (isNumbered_iff hpos' (by omega)).mp hs'
    exact hfirst width' n' ⟨hpos', by omega, hn'⟩ hbefore

theorem makeUnique_eq_ok_iff {taken : String → Bool} {name s : String}
    : makeUnique taken name = .ok s
        ↔ taken name = false ∧ s = name ∨ taken name = true ∧ IsFirstFree taken name s := by
  rw [makeUnique_eq, isFirstFree_iff]
  cases taken name with
  | false => simp [eq_comm]
  | true =>
    cases (keys name.length).find? fun key => !taken (numbered name key) with
    | none => simp
    | some key => simp [eq_comm]

end Identifier

/-! ## Sets with few names -/

theorem Text.toUpper_of_isDigit {c : Char} (h : c.isDigit = true) : c.toUpper = c := by
  obtain ⟨_, hnine⟩ := Char.isDigit_iff_toNat.mp h
  have hlow : ¬ 'a'.toNat ≤ c.toNat := by
    have h57 : '9'.toNat = 57 := rfl
    have h97 : 'a'.toNat = 97 := rfl
    omega
  unfold Char.toUpper
  rw [dif_neg]
  intro hlower
  exact hlow (UInt32.le_iff_toNat_le.mp hlower.1)

theorem NameSet.exists_free {names : NameSet} {f : Nat → String} {count : Nat}
    (hf : ∀ m < count, ∀ n < count, Text.upperAscii (f m) = Text.upperAscii (f n) → m = n)
    (h : names.size < count) : ∃ n < count, names.contains (f n) = false := by
  by_contra hall
  push Not at hall
  have hnodup : ((List.range count).map fun n => Text.upperAscii (f n)).Nodup := by
    apply List.Nodup.map_on _ List.nodup_range
    intro m hm n hn
    exact hf m (List.mem_range.mp hm) n (List.mem_range.mp hn)
  have hsubset : (List.range count).map (fun n => Text.upperAscii (f n)) ⊆ names.words.toList := by
    intro word hword
    obtain ⟨n, hn, rfl⟩ := List.mem_map.mp hword
    have := hall n (List.mem_range.mp hn)
    simpa [NameSet.contains] using this
  have hlength := (hnodup.subperm hsubset).length_le
  rw [List.length_map, List.length_range] at hlength
  exact Nat.lt_irrefl _ (Nat.lt_of_lt_of_le h hlength)

/-! ## Repaired names -/

namespace Profile

open Identifier

/--
What is made unique when a name is repaired: the name, or what stands between its delimiters, in a
form that fits.
-/
def fittedCore (p : Profile) (name : String) (kind : NameKind) : String :=
  match p.delimitedBody? name with
  | some body => shorten body (p.maxNameLength kind - 2)
  | none => p.fit name (p.maxNameLength kind)

def delimitLike (p : Profile) (name s : String) : String :=
  if (p.delimitedBody? name).isSome then p.delimit s else s

theorem repairName_eq (p : Profile) (name : String) (kind : NameKind) (names : NameSet)
    (unique : Bool)
    : p.repairName name kind names unique
        =
      p.delimitLike name <$>
        if unique then
          makeUnique (fun s => names.contains (p.delimitLike name s)) (p.fittedCore name kind)
        else
          .ok (p.fittedCore name kind) := by
  unfold repairName fittedCore delimitLike
  cases p.delimitedBody? name with
  | some body => cases unique <;> simp [map_eq_pure_bind]
  | none => simp

theorem exists_toList_delimitLike (p : Profile) (name : String)
    : ∃ before after, ∀ s, (p.delimitLike name s).toList = before ++ s.toList ++ after := by
  unfold delimitLike
  split
  · refine ⟨[p.naming.quoteStyle.opening], [p.naming.quoteStyle.closing], fun s => ?_⟩
    simp [delimit]
  · exact ⟨[], [], fun s => by simp⟩

-- Case is no matter for digits.
theorem eq_of_upperAscii_numbered {p : Profile} {name core : String} {width m n : Nat}
    (h : Text.upperAscii (p.delimitLike name (numbered core (width, m)))
      = Text.upperAscii (p.delimitLike name (numbered core (width, n))))
    : m = n := by
  obtain ⟨before, after, hlike⟩ := p.exists_toList_delimitLike name
  have hupper : ∀ n, (padded width n).map Char.toUpper = padded width n := by
    intro n
    have hdigits := (Text.digitsValue?_eq_some_iff.mp (digitsValue?_padded width n)).1
    exact (List.map_congr_left fun c hc => Text.toUpper_of_isDigit (hdigits c hc)).trans
      (List.map_id _)
  have hpadded : padded width m = padded width n := by
    have hlist := congrArg String.toList h
    simpa [hlike, numbered, hupper] using hlist
  have hvalue := congrArg Text.digitsValue? hpadded
  rw [digitsValue?_padded, digitsValue?_padded] at hvalue
  exact Option.some.inj hvalue

theorem repairName_unique_of_size_lt {p : Profile} {name : String} {kind : NameKind}
    {names : NameSet} (h : names.size < 10 ^ min (p.fittedCore name kind).length 18)
    : ∃ repaired, p.repairName name kind names true = .ok repaired := by
  rw [repairName_eq, if_pos rfl]
  cases hunique : makeUnique (fun s => names.contains (p.delimitLike name s))
      (p.fittedCore name kind) with
  | ok s => exact ⟨_, rfl⟩
  | error e =>
    obtain ⟨_, htaken, hall⟩ := makeUnique_eq_error_iff.mp hunique
    exfalso
    generalize hwidth : min (p.fittedCore name kind).length 18 = width at h hall
    rcases Nat.eq_zero_or_pos width with rfl | hpos
    · -- The set is empty, so that not even the name itself is taken.
      have hempty : names.words.toList = [] := List.length_eq_zero_iff.mp (Nat.lt_one_iff.mp h)
      have hmem : _ ∈ names.words.toList := of_decide_eq_true htaken
      simp [hempty] at hmem
    · obtain ⟨n, hn, hfree⟩ := NameSet.exists_free
        (f := fun n => p.delimitLike name (numbered (p.fittedCore name kind) (width, n)))
        (fun _ _ _ _ => eq_of_upperAscii_numbered) h
      have hle : width ≤ (p.fittedCore name kind).length := by omega
      have hnumbered := (isNumbered_iff hpos hle).mpr ⟨hn, rfl⟩
      have htaken := hall width n _ hpos (Nat.le_refl _) hnumbered
      rw [hfree] at htaken
      cases htaken

/--
A name that is to be unique has no repair only if it is taken in the form that fits and so is every
name that a number of up to 18 digits makes of it, which needs as many names as there are numbers of
the greatest width. Otherwise the repair is the fitting form, or else the first free one of these
names. There are never so many numbers of one width that 64 bits do not count them.
-/
theorem repairName_exhausts (p : Profile) (name : String) (kind : NameKind) (names : NameSet)
    : let core := p.fittedCore name kind
      let taken := fun s => names.contains (p.delimitLike name s)
      (∀ e, p.repairName name kind names true = .error e
        ↔ e = .nameSpaceExhausted core ∧ taken core = true
          ∧ ∀ width n s, 0 < width → width ≤ min core.length 18 → IsNumbered core width n s →
              taken s = true)
      ∧ (∀ repaired, p.repairName name kind names true = .ok repaired
        ↔ ∃ s, repaired = p.delimitLike name s
            ∧ (taken core = false ∧ s = core ∨ taken core = true ∧ IsFirstFree taken core s))
      ∧ (names.size < 10 ^ min core.length 18 →
          ∃ repaired, p.repairName name kind names true = .ok repaired)
      ∧ ∀ width ≤ min core.length 18, 10 ^ width < Text.bound64 := by
  intro core taken
  refine ⟨fun e => ?_, fun repaired => ?_, repairName_unique_of_size_lt, fun width hwidth => ?_⟩
  · rw [repairName_eq, if_pos rfl, Compile.map_eq_error_iff]
    exact makeUnique_eq_error_iff
  · rw [repairName_eq, if_pos rfl, Compile.map_eq_ok_iff]
    simp only [makeUnique_eq_ok_iff]
    constructor
    · rintro ⟨s, hs, rfl⟩
      exact ⟨s, rfl, hs⟩
    · rintro ⟨s, rfl, hs⟩
      exact ⟨s, hs, rfl⟩
  · calc
      10 ^ width ≤ 10 ^ 18 := Nat.pow_le_pow_right (by decide) (by omega)
      _ < Text.bound64 := by decide

-- All digits are taken, so that there is no room for another name of one character. A name of two
-- characters in delimiters gets two digits once all those that begin as it does are taken.
theorem repairName_exhausts_digits
    : let p := { Vendor.generic.profile with naming.reservedWords := .empty }
      let digits := ["0", "1", "2", "3", "4", "5", "6", "7", "8", "9"]
      let names := NameSet.ofList ("x" :: digits)
      let delimited := NameSet.ofList ("\"AB\"" :: digits.map fun d => p.delimit ("a" ++ d))
      p.repairName "X" .column names true = .error (.nameSpaceExhausted "X")
      ∧ (∀ width n s, 0 < width → width ≤ min "X".length 18 → IsNumbered "X" width n s →
          names.contains s = true)
      ∧ names.size < 10 ^ min "AB".length 18
      ∧ (∃ repaired, p.repairName "AB" .column names true = .ok repaired)
      ∧ p.repairName "\"AB\"" .column delimited true = .ok "\"00\""
      ∧ ∃ s, "\"00\"" = p.delimitLike "\"AB\"" s
        ∧ IsFirstFree (fun s => delimited.contains (p.delimitLike "\"AB\"" s)) "AB" s := by
  intro p digits names delimited
  have hfails : p.repairName "X" .column names true = .error (.nameSpaceExhausted "X") := by
    decide +kernel
  have hsize : names.size < 10 ^ min (p.fittedCore "AB" .column).length 18 := by decide +kernel
  have hrepaired : p.repairName "\"AB\"" .column delimited true = .ok "\"00\"" := by
    decide +kernel
  have hcore : p.fittedCore "X" .column = "X" := by decide +kernel
  have hcore' : p.fittedCore "AB" .column = "AB" := by decide +kernel
  have hcore'' : p.fittedCore "\"AB\"" .column = "AB" := by decide +kernel
  have hplain : p.delimitedBody? "X" = none := by decide +kernel
  have hlike : ∀ s, p.delimitLike "X" s = s := fun s => by simp [delimitLike, hplain]
  obtain ⟨_, _, hall⟩ := ((repairName_exhausts p "X" .column names).1 _).mp hfails
  rw [hcore] at hall
  simp only [hlike] at hall
  have hsome := (repairName_exhausts p "AB" .column names).2.2.1 hsize
  rw [hcore'] at hsize
  obtain ⟨s, hs, hfirst⟩ := ((repairName_exhausts p "\"AB\"" .column delimited).2.1 _).mp hrepaired
  rw [hcore''] at hfirst
  refine ⟨hfails, hall, hsize, hsome, hrepaired, s, hs, ?_⟩
  rcases hfirst with ⟨_, rfl⟩ | ⟨_, hfirst⟩
  · exact absurd hs (by decide +kernel)
  · exact hfirst

end Profile

end SqlDialect
