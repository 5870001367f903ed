import SqlDialect.Profile.Default
import SqlDialect.Proofs.Text.Search
import SqlDialect.Schema.ColumnType

/-!
This module contains what becomes of a type name when it is given a size. The size stands out by its
parenthesis, so a name is given a size only once, and nothing but the size is added to the name or
its mark taken away.
-/

namespace SqlDialect

/-! ## Texts up to white space -/

namespace Text

def unspaced (cs : List Char) : List Char := cs.filter fun c => !isBlank c

@[simp]
theorem unspaced_append (cs ds : List Char) : unspaced (cs ++ ds) = unspaced cs ++ unspaced ds :=
  List.filter_append cs ds

theorem unspaced_trimStart (cs : List Char) : unspaced (trimStart cs) = unspaced cs := by
  unfold trimStart
  induction cs with
  | nil => rfl
  | cons c cs ih =>
    rw [List.dropWhile_cons]
    split
    · next hc => simpa [unspaced, hc] using ih
    · rfl

@[simp]
theorem unspaced_trimEnd (cs : List Char) : unspaced (trimEnd cs) = unspaced cs := by
  have h := unspaced_trimStart cs.reverse
  unfold unspaced at h ⊢
  rw [List.filter_reverse] at h
  rw [trimEnd, List.filter_reverse, h, List.reverse_reverse]

theorem mem_unspaced {c : Char} (hc : isBlank c = false) {cs : List Char}
    : c ∈ unspaced cs ↔ c ∈ cs := by
  simp [unspaced, hc]

/-! ## Places in bytes -/

theorem utf8Size_toUpper (c : Char) : c.toUpper.utf8Size = c.utf8Size := by
  unfold Char.toUpper
  split
  · next h =>
    have hlow : 97 ≤ c.val.toNat := UInt32.le_iff_toNat_le.mp h.1
    have hhigh : c.val.toNat ≤ 122 := UInt32.le_iff_toNat_le.mp h.2
    rw [Char.utf8Size_eq_one_iff.mpr, Char.utf8Size_eq_one_iff.mpr]
    · rw [UInt32.le_iff_toNat_le]
      exact Nat.le_trans hhigh (by decide)
    · -- The distance from a small letter to its capital is negative, so the sum wraps around.
      rw [UInt32.le_iff_toNat_le, UInt32.toNat_add]
      change (c.val.toNat + 4294967264) % 4294967296 ≤ 127
      omega
  · rfl

theorem utf8ByteSize_ofList_cons (c : Char) (cs : List Char)
    : (String.ofList (c :: cs)).utf8ByteSize = c.utf8Size + (String.ofList cs).utf8ByteSize := by
  rw [← List.singleton_append, String.ofList_append, String.utf8ByteSize_append,
    ← String.singleton_eq_ofList, String.utf8ByteSize_singleton]

theorem utf8ByteSize_map_toUpper (cs : List Char)
    : (String.ofList (cs.map Char.toUpper)).utf8ByteSize = (String.ofList cs).utf8ByteSize := by
  induction cs with
  | nil => rfl
  | cons c cs ih =>
    rw [List.map_cons, utf8ByteSize_ofList_cons, utf8ByteSize_ofList_cons, utf8Size_toUpper, ih]

def byteOffset (s : String) (i : Nat) : String.Pos.Raw :=
  (String.ofList (s.toList.take i)).rawEndPos

theorem isValid_byteOffset (s : String) (i : Nat) : (byteOffset s i).IsValid s := by
  apply String.Pos.Raw.isValid_iff_exists_append.mpr
  refine ⟨String.ofList (s.toList.take i), String.ofList (s.toList.drop i), ?_, rfl⟩
  rw [← String.ofList_append, List.take_append_drop, String.ofList_toList]

theorem byteOffset_upperAscii (s : String) (i : Nat)
    : byteOffset (upperAscii s) i = byteOffset s i := by
  unfold byteOffset
  rw [toList_upperAscii, ← List.map_take]
  ext
  exact utf8ByteSize_map_toUpper (s.toList.take i)

end Text

namespace Profile

open Text (WithoutFirst byteOffset unspaced)

variable {p : Profile} {name clause : String} {size decimals : Nat}

/-! ## Where a size goes -/

theorem modifierStart?_le {i : Nat} (h : p.modifierStart? name.toList = some i)
    : i ≤ name.length := by
  obtain ⟨m, _, hm⟩ := List.mem_filterMap.mp (List.min?_mem h)
  obtain ⟨⟨before, after⟩, hsplit, rfl⟩ := Option.map_eq_some_iff.mp hm
  have hlength := congrArg List.length (Text.eq_append_of_splitAt? hsplit)
  simp only [List.length_map, List.length_append, String.length_toList] at hlength
  change before.length ≤ name.length
  omega

theorem isValid_sizeMark {before after : List Char}
    (h : Text.splitAt? sizeMark name.toList = some (before, after))
    : String.Pos.Raw.IsValid name ⟨(byteOffset name before.length).byteIdx + 3⟩ := by
  have hname := Text.eq_append_of_splitAt? h
  have hend : byteOffset name (before ++ sizeMark).length
      = ⟨(byteOffset name before.length).byteIdx + 3⟩ := by
    unfold byteOffset
    rw [hname, List.take_left, List.append_assoc, List.take_left, String.ofList_append]
    ext
    exact String.utf8ByteSize_append
  rw [← hend]
  exact Text.isValid_byteOffset name (before ++ sizeMark).length

theorem exists_insertSize (p : Profile) (name : String) (hclause : clause.isEmpty = false)
    : ∃ before after kept,
        p.insertSize name clause = String.ofList before ++ clause ++ String.ofList after
          ∧ WithoutFirst sizeMark name.toList kept
          ∧ unspaced (before ++ after) = unspaced kept := by
  unfold insertSize
  cases hmark : Text.splitAt? sizeMark name.toList with
  | some x =>
    obtain ⟨before, after⟩ := x
    refine ⟨before, after, before ++ after, ?_, .of_splitAt? hmark, rfl⟩
    simp [hclause]
  | none =>
    have hkept := WithoutFirst.absent (Text.splitAt?_eq_none_iff.mp hmark)
    simp only [hclause, Bool.false_eq_true, if_false]
    cases p.modifierStart? name.toList with
    | none => exact ⟨name.toList, [], name.toList, by simp, hkept, by simp⟩
    | some i =>
      refine ⟨Text.trimEnd (name.toList.take i), ' ' :: name.toList.drop i, _, ?_, hkept, ?_⟩
      · rw [← List.singleton_append, String.ofList_append, ← String.append_assoc]
      · have hspace : unspaced (' ' :: name.toList.drop i) = unspaced (name.toList.drop i) := by
          rw [← List.singleton_append, Text.unspaced_append]
          rfl
        rw [Text.unspaced_append, Text.unspaced_trimEnd, hspace, ← Text.unspaced_append,
          List.take_append_drop]

/-! ## Sizes -/

theorem paren_mem_sizeClause (h : 0 < size) (decimals : Nat)
    : '(' ∈ (sizeClause size decimals).toList := by
  cases size with
  | zero => omega
  | succ size =>
    have hopen : '(' ∈ (toString "(").toList := by decide
    cases decimals <;> simp [sizeClause, hopen]

theorem isEmpty_sizeClause (h : 0 < size) (decimals : Nat)
    : (sizeClause size decimals).isEmpty = false := by
  have hmem := paren_mem_sizeClause h decimals
  rw [Bool.eq_false_iff]
  intro hempty
  rw [String.isEmpty_iff.mp hempty] at hmem
  cases hmem

theorem appendSize_of_sized (h : Text.upperAscii name ∈ p.types.fixedSize ∨ '(' ∈ name.toList)
    (size decimals : Nat) : p.appendSize name size decimals = name :=
  if_pos h

theorem appendSize_of_unsized
    (h : ¬ (Text.upperAscii name ∈ p.types.fixedSize ∨ '(' ∈ name.toList)) (size decimals : Nat)
    : p.appendSize name size decimals = p.insertSize name (sizeClause size decimals) :=
  if_neg h

theorem exists_appendSize (hsize : 0 < size) (decimals : Nat)
    (h : ¬ (Text.upperAscii name ∈ p.types.fixedSize ∨ '(' ∈ name.toList))
    : ∃ before after kept,
        p.appendSize name size decimals
            = String.ofList before ++ sizeClause size decimals ++ String.ofList after
          ∧ '(' ∉ before ∧ '(' ∉ after
          ∧ WithoutFirst sizeMark name.toList kept
          ∧ unspaced (before ++ after) = unspaced kept := by
  obtain ⟨before, after, kept, hinsert, hkept, hunspaced⟩ :=
    p.exists_insertSize name (isEmpty_sizeClause hsize decimals)
  have hnone : '(' ∉ before ++ after := by
    intro hmem
    have hblank : Text.isBlank '(' = false := by decide
    rw [← Text.mem_unspaced hblank, hunspaced, Text.mem_unspaced hblank] at hmem
    exact h (.inr (hkept.subset hmem))
  rw [List.mem_append, not_or] at hnone
  rw [appendSize_of_unsized h]
  exact ⟨before, after, kept, hinsert, hnone.1, hnone.2, hkept, hunspaced⟩

theorem insertSize_insertSize (p : Profile) (name : String)
    : p.insertSize (p.insertSize name "") "" = p.insertSize name "" := by
  have hplain : ∀ {name : String}, Text.splitAt? sizeMark name.toList = none →
      p.insertSize name "" = name := by
    intro name h
    simp [insertSize, h]
  cases hmark : Text.splitAt? sizeMark name.toList with
  | none => rw [hplain hmark, hplain hmark]
  | some x =>
    obtain ⟨before, after⟩ := x
    have hname : p.insertSize name "" = String.ofList before := by simp [insertSize, hmark]
    rw [hname]
    apply hplain
    rw [String.toList_ofList, Text.splitAt?_eq_none_iff]
    -- What stands before the first mark has no mark in it.
    rintro ⟨b, a, rfl⟩
    have heq := Text.eq_append_of_splitAt? hmark
    have hle := Text.length_le_of_splitAt? hmark (b := b) (a := a ++ sizeMark ++ after)
      (by simpa using heq)
    have hmarkLength : sizeMark.length = 3 := rfl
    simp only [List.length_append] at hle
    omega

theorem appendSize_appendSize (p : Profile) (name : String) {size size' : Nat}
    (decimals decimals' : Nat) (h : 0 < size ∨ size' = 0)
    : p.appendSize (p.appendSize name size decimals) size' decimals'
        =
      p.appendSize name size decimals := by
  by_cases hname : Text.upperAscii name ∈ p.types.fixedSize ∨ '(' ∈ name.toList
  · simp only [appendSize_of_sized hname]
  · by_cases hsize : 0 < size
    · obtain ⟨before, after, kept, heq, _⟩ := exists_appendSize hsize decimals hname
      apply appendSize_of_sized
      right
      simp [heq, paren_mem_sizeClause hsize]
    · obtain rfl : size = 0 := by omega
      obtain rfl : size' = 0 := by omega
      have hclause : ∀ decimals, sizeClause 0 decimals = "" := fun _ => rfl
      rw [appendSize_of_unsized hname, hclause]
      by_cases hagain : Text.upperAscii (p.insertSize name "") ∈ p.types.fixedSize
          ∨ '(' ∈ (p.insertSize name "").toList
      · exact appendSize_of_sized hagain 0 decimals'
      · rw [appendSize_of_unsized hagain, hclause, insertSize_insertSize]

/--
The places at which a name is taken apart are places in it, in characters and in bytes. A name that
has been given a size keeps it, whatever size it is given then, and a name that has been given no
size stays the same when it is given none again. The name that a size is put into is left as it was,
up to white space, except that the first mark for the size is gone.
-/
theorem appendSize_idempotent (p : Profile) (name : String) (size decimals : Nat)
    : (∀ before after, Text.splitAt? sizeMark name.toList = some (before, after) →
          let start := byteOffset name before.length
          start.IsValid name ∧ String.Pos.Raw.IsValid name ⟨start.byteIdx + 3⟩)
        ∧ (∀ i, p.modifierStart? name.toList = some i →
            i ≤ name.length ∧ (byteOffset (Text.upperAscii name) i).IsValid name)
        ∧ p.appendSize (p.appendSize name size decimals) size decimals
            = p.appendSize name size decimals
        ∧ (0 < size → ∀ size' decimals',
            p.appendSize (p.appendSize name size decimals) size' decimals'
              = p.appendSize name size decimals)
        ∧ (0 < size → Text.upperAscii name ∉ p.types.fixedSize → '(' ∉ name.toList →
            ∃ before after kept,
              p.appendSize name size decimals
                  = String.ofList before ++ sizeClause size decimals ++ String.ofList after
                ∧ '(' ∉ before ∧ '(' ∉ after
                ∧ WithoutFirst sizeMark name.toList kept
                ∧ unspaced (before ++ after) = unspaced kept) := by
  refine ⟨?_, ?_, ?_, ?_, ?_⟩
  · exact fun before after hmark =>
      ⟨Text.isValid_byteOffset name before.length, isValid_sizeMark hmark⟩
  · intro i hi
    rw [Text.byteOffset_upperAscii]
    exact ⟨modifierStart?_le hi, Text.isValid_byteOffset name i⟩
  · apply appendSize_appendSize
    omega
  · exact fun hsize size' decimals' => p.appendSize_appendSize name decimals decimals' (.inl hsize)
  · exact fun hsize hfixed hparen => exists_appendSize hsize decimals (by simp [hfixed, hparen])

-- The modifier starts after five characters, of which the first one takes two bytes.
theorem appendSize_idempotent_modifier
    : let p := Vendor.mySql.profile
      let name := "é\x7b0\x7d unsigned"
      Text.splitAt? sizeMark name.toList = some (['é'], " unsigned".toList)
        ∧ String.Pos.Raw.IsValid name ⟨2⟩ ∧ String.Pos.Raw.IsValid name ⟨5⟩
        ∧ p.modifierStart? name.toList = some 5
        ∧ byteOffset (Text.upperAscii name) 5 = ⟨6⟩ ∧ String.Pos.Raw.IsValid name ⟨6⟩
        ∧ p.appendSize name 10 2 = "é(10, 2) unsigned"
        ∧ p.appendSize "é(10, 2) unsigned" 7 0 = "é(10, 2) unsigned"
        ∧ ∃ before after kept,
            "é(10, 2) unsigned" = String.ofList before ++ sizeClause 10 2 ++ String.ofList after
              ∧ WithoutFirst sizeMark name.toList kept
              ∧ unspaced (before ++ after) = unspaced kept := by
  intro p name
  obtain ⟨hmark, hplaces, _, hagain, hdeleted⟩ := p.appendSize_idempotent name 10 2
  have hsplit : Text.splitAt? sizeMark name.toList = some (['é'], " unsigned".toList) := by
    decide +kernel
  have hstart : p.modifierStart? name.toList = some 5 := by decide +kernel
  have hfirst : byteOffset name ['é'].length = ⟨2⟩ := by decide +kernel
  have hbytes : byteOffset (Text.upperAscii name) 5 = ⟨6⟩ := by decide +kernel
  have hsized : p.appendSize name 10 2 = "é(10, 2) unsigned" := by decide +kernel
  obtain ⟨hbefore, hafter⟩ := hmark ['é'] " unsigned".toList hsplit
  rw [hfirst] at hbefore hafter
  have hmodifier := (hplaces 5 hstart).2
  have hkept := hagain (by decide) 7 0
  obtain ⟨before, after, kept, hclause, _, _, hrest⟩ :=
    hdeleted (by decide) (by decide +kernel) (by decide +kernel)
  rw [hbytes] at hmodifier
  rw [hsized] at hkept hclause
  exact ⟨hsplit, hbefore, hafter, hstart, hbytes, hmodifier, hsized, hkept, before, after, kept,
    hclause, hrest⟩

end Profile
end SqlDialect
