import Mathlib.Data.List.Basic
import SqlDialect.RowRange

/-!
This module contains the meaning of row ranges. What a dialect writes for a range is read as SQL, as
a function on lists of rows, and all dialects turn out to select the same rows.
-/

namespace SqlDialect

def RowRange.rows {α : Type} (r : RowRange) (rows : List α) : List α :=
  match r.stop with
  | some stop => (rows.drop r.start).take (max stop r.start - r.start)
  | none => rows.drop r.start

def takeAtMost {α : Type} (limit : Option Nat) (rows : List α) : List α :=
  match limit with
  | some n => rows.take n
  | none => rows

theorem RowRange.rows_eq_takeAtMost {α : Type} (r : RowRange) (rows : List α)
    : r.rows rows = takeAtMost r.count? (rows.drop r.start) := by
  unfold RowRange.rows RowRange.count? RowRange.upper?
  cases r.stop <;> rfl

-- A range never ends before it starts, so its rows can be cut off first and skipped then.
theorem RowRange.rows_eq_drop {α : Type} (r : RowRange) (rows : List α)
    : r.rows rows = (takeAtMost r.upper? rows).drop r.start := by
  unfold RowRange.rows RowRange.upper?
  cases r.stop with
  | none => rfl
  | some stop => exact List.drop_take.symm

theorem RowRange.start_le_of_upper? {r : RowRange} {n : Nat} (h : r.upper? = some n)
    : r.start ≤ n := by
  obtain ⟨stop, _, rfl⟩ := Option.map_eq_some_iff.mp h
  exact Nat.le_max_right stop r.start

theorem map_takeAtMost {α β : Type} (limit : Option Nat) (f : α → β) (rows : List α)
    : (takeAtMost limit rows).map f = takeAtMost limit (rows.map f) := by
  cases limit with
  | none => rfl
  | some n => exact List.map_take

/-! ## Range clauses -/

inductive RangeClause where
  | none
  | limit (n : Nat)
  | offset (s : Nat)
  | limitOffset (n s : Nat)
  /-- `LIMIT s, n` -/
  | limitFrom (s n : Nat)
  | fetchFirst (n : Nat)
  | top (n : Nat)
  deriving DecidableEq

namespace RangeClause

def tokens : RangeClause → List Token
  | .none => []
  | .limit n => [.space, .keyword .limit, .space, .count n]
  | .offset s => [.space, .keyword .offset, .space, .count s]
  | .limitOffset n s =>
    [.space, .keyword .limit, .space, .count n, .space, .keyword .offset, .space, .count s]
  | .limitFrom s n =>
    [.space, .keyword .limit, .space, .count s, .symbol .comma, .space, .count n]
  | .fetchFirst n =>
    [.space, .keyword .fetch, .space, .keyword .first, .space, .count n, .space, .keyword .rows,
      .space, .keyword .only]
  | .top n => [.space, .keyword .top, .space, .count n]

def rows {α : Type} : RangeClause → List α → List α
  | .none, rows => rows
  | .limit n, rows | .fetchFirst n, rows | .top n, rows => rows.take n
  | .offset s, rows => rows.drop s
  | .limitOffset n s, rows | .limitFrom s n, rows => (rows.drop s).take n

theorem tokens_injective {c d : RangeClause} (h : c.tokens = d.tokens) : c = d := by
  cases c <;> cases d <;> simp_all [tokens]

end RangeClause

/-! ## Row numbers -/

structure NumberedRow (α : Type) where
  row : α
  number : Option Nat := none

inductive RowCondition where
  /-- `ROWNUM <= n` -/
  | rowNumAtMost (n : Nat)
  /-- `RNUM > s` -/
  | numberAbove (s : Nat)
  deriving DecidableEq

namespace RowCondition

def comparison : RowCondition → String
  | .rowNumAtMost _ => "ROWNUM <= "
  | .numberAbove _ => "RNUM > "

def bound : RowCondition → Nat
  | .rowNumAtMost n | .numberAbove n => n

def text (c : RowCondition) : String := c.comparison ++ toString c.bound

def holds {α : Type} (k : Nat) (row : NumberedRow α) : RowCondition → Bool
  | .rowNumAtMost n => k ≤ n
  | .numberAbove s => row.number.any (s < ·)

end RowCondition

/--
The rows that satisfy a condition, with their row numbers. A row is tried with the next number, and
takes it only if it satisfies the condition.
-/
def numberRows {α : Type} (condition : Nat → α → Bool) : Nat → List α → List (Nat × α)
  | _, [] => []
  | k, a :: as =>
    if condition k a then
      (k, a) :: numberRows condition (k + 1) as
    else
      numberRows condition k as

section NumberRows

variable {α : Type}

theorem numberRows_eq (c : α → Bool) (k : Nat) (as : List α)
    : numberRows (fun _ a => c a) k as = ((as.filter c).zipIdx k).map Prod.swap := by
  induction as generalizing k with
  | nil => rfl
  | cons a as ih =>
    rw [numberRows]
    split
    · next h => simp [h, ih]
    · next h => simp [h, ih]

-- The rows that satisfy the other conditions are numbered from `k` on, until `n` is reached.
theorem numberRows_atMost (c : α → Bool) (n k : Nat) (as : List α)
    : numberRows (fun k a => c a && decide (k ≤ n)) k as
        =
      (((as.filter c).take (n + 1 - k)).zipIdx k).map Prod.swap := by
  induction as generalizing k with
  | nil => simp [numberRows]
  | cons a as ih =>
    rw [numberRows]
    cases hc : c a with
    | false => simp [hc, ih]
    | true =>
      by_cases hk : k ≤ n
      · have hsucc : n + 1 - k = (n + 1 - (k + 1)) + 1 := by omega
        simp only [hk, decide_true, Bool.and_self, if_true, ih]
        rw [hsucc, List.filter_cons_of_pos hc, List.take_succ_cons]
        rfl
      · have hzero : n + 1 - k = 0 := by omega
        simp only [hk, decide_false, Bool.and_false, Bool.false_eq_true, if_false, ih]
        simp [hzero]

@[simp]
theorem map_snd_map_swap_zipIdx (k : Nat) (as : List α)
    : ((as.zipIdx k).map Prod.swap).map (·.2) = as := by
  simp [Function.comp_def]

theorem map_fst_filter_zipIdx (s k : Nat) (as : List α)
    : ((as.zipIdx k).filter (s < ·.2)).map (·.1) = as.drop (s + 1 - k) := by
  induction as generalizing k with
  | nil => simp
  | cons a as ih =>
    rw [List.zipIdx_cons]
    by_cases hk : s < k
    · have hzero : s + 1 - k = 0 := by omega
      have hzero' : s + 1 - (k + 1) = 0 := by omega
      rw [List.filter_cons_of_pos (by simpa using hk), List.map_cons, ih]
      simp [hzero, hzero']
    · have hsucc : s + 1 - k = (s + 1 - (k + 1)) + 1 := by omega
      rw [List.filter_cons_of_neg (by simpa using hk), ih, hsucc, List.drop_succ_cons]

end NumberRows

inductive RowNumColumns where
  /-- `SELECT * FROM (select)` -/
  | all
  /-- `SELECT r.*, ROWNUM RNUM FROM (select) r` -/
  | numbered

namespace RowNumColumns

def opening : RowNumColumns → String
  | .all => "SELECT * FROM ("
  | .numbered => "SELECT r.*, ROWNUM RNUM FROM ("

def closing : RowNumColumns → String
  | .all => ")"
  | .numbered => ") r"

def row {α : Type} (k : Nat) (row : NumberedRow α) : RowNumColumns → NumberedRow α
  | .all => row
  | .numbered => { row with number := some k }

end RowNumColumns

/--
The selects around a select that number its rows and choose among them.
-/
inductive RowNumSelect where
  | inner
  | outer (columns : RowNumColumns) (source : RowNumSelect) (condition : Option RowCondition)

namespace RowNumSelect

def whereText : Option RowCondition → String
  | none => ""
  | some c => " WHERE " ++ c.text

def text (innerText : String) : RowNumSelect → String
  | .inner => innerText
  | .outer columns source c =>
    columns.opening ++ source.text innerText ++ columns.closing ++ whereText c

def holds {α : Type} (c : Option RowCondition) (k : Nat) (row : NumberedRow α) : Bool :=
  c.all (·.holds k row)

def numberedRows {α : Type} (innerRows : List α) : RowNumSelect → List (NumberedRow α)
  | .inner => innerRows.map fun row => { row }
  | .outer columns source c =>
    (numberRows (holds c) 1 (source.numberedRows innerRows)).map fun (k, row) => columns.row k row

def rows {α : Type} (innerRows : List α) (s : RowNumSelect) : List α :=
  (s.numberedRows innerRows).map (·.row)

/-! ### Reading the text back -/

theorem toDigits_injective {m n : Nat} (h : Nat.toDigits 10 m = Nat.toDigits 10 n) : m = n := by
  have hread : ∀ n, Nat.ofDigitChars 10 (Nat.toDigits 10 n) 0 = n :=
    fun _ => Nat.ofDigitChars_toDigits (by omega) (by omega)
  rw [← hread m, h, hread]

theorem append_toDigits_injective {xs ys : List Char} {m n : Nat}
    (hxs : ∀ c ∈ xs.getLast?, c.isDigit = false) (hys : ∀ c ∈ ys.getLast?, c.isDigit = false)
    (h : xs ++ Nat.toDigits 10 m = ys ++ Nat.toDigits 10 n) : xs = ys ∧ m = n := by
  have hsame : ∀ {xs ys as : List Char} {m n : Nat}, (∀ c ∈ ys.getLast?, c.isDigit = false) →
      ys = xs ++ as → Nat.toDigits 10 m = as ++ Nat.toDigits 10 n → as = [] := by
    intro xs ys as m n hys hsplit hdigits
    cases hlast : as.getLast? with
    | none => exact List.getLast?_eq_none_iff.mp hlast
    | some c =>
      have hc : c ∈ Nat.toDigits 10 m := by
        rw [hdigits]
        exact List.mem_append_left _ (List.mem_of_getLast? hlast)
      have hdigit := Nat.isDigit_of_mem_toDigits (by omega) (by omega) hc
      rw [hys c (by simp [hsplit, hlast])] at hdigit
      cases hdigit
  rw [List.append_eq_append_iff] at h
  obtain ⟨as, hsplit, hdigits⟩ | ⟨bs, hsplit, hdigits⟩ := h
  · obtain rfl := hsame hys hsplit hdigits
    simp only [List.append_nil, List.nil_append] at hsplit hdigits
    exact ⟨hsplit.symm, toDigits_injective hdigits⟩
  · obtain rfl := hsame hxs hsplit hdigits
    simp only [List.append_nil, List.nil_append] at hsplit hdigits
    exact ⟨hsplit, (toDigits_injective hdigits).symm⟩

theorem eq_of_comparison_eq {xs ys : List Char} {c d : RowCondition} (hbound : c.bound = d.bound)
    (h : xs ++ c.comparison.toList = ys ++ d.comparison.toList) : xs = ys ∧ c = d := by
  cases c <;> cases d <;> simp_all [RowCondition.comparison, RowCondition.bound]
  all_goals
    have hlast := congrArg List.reverse h
    simp at hlast

theorem toList_whereText_some (c : RowCondition)
    : (whereText (some c)).toList
        =
      " WHERE ".toList ++ c.comparison.toList ++ Nat.toDigits 10 c.bound := by
  simp [whereText, RowCondition.text]

theorem not_whereText_some {xs ys : List Char} {c : RowCondition}
    (hxs : ∀ x ∈ xs.getLast?, x.isDigit = false)
    : xs ≠ ys ++ (whereText (some c)).toList := by
  intro h
  obtain ⟨digit, hdigit⟩ : ∃ d, (Nat.toDigits 10 c.bound).getLast? = some d := by
    cases hlast : (Nat.toDigits 10 c.bound).getLast? with
    | none => exact absurd (List.getLast?_eq_none_iff.mp hlast) Nat.toDigits_ne_nil
    | some d => exact ⟨d, rfl⟩
  have hmem : digit ∈ xs.getLast? := by
    rw [h, toList_whereText_some, ← List.append_assoc, List.getLast?_append, hdigit]
    rfl
  have := Nat.isDigit_of_mem_toDigits (by omega) (by omega) (List.mem_of_getLast? hdigit)
  rw [hxs digit hmem] at this
  cases this

theorem whereText_injective {xs ys : List Char} {c d : Option RowCondition}
    (hxs : ∀ x ∈ xs.getLast?, x.isDigit = false) (hys : ∀ y ∈ ys.getLast?, y.isDigit = false)
    (h : xs ++ (whereText c).toList = ys ++ (whereText d).toList) : xs = ys ∧ c = d := by
  have hnone : (whereText none).toList = [] := rfl
  cases c with
  | none =>
    cases d with
    | none => simpa [hnone] using h
    | some d =>
      rw [hnone, List.append_nil] at h
      exact absurd h (not_whereText_some hxs)
  | some c =>
    cases d with
    | none =>
      rw [hnone, List.append_nil] at h
      exact absurd h.symm (not_whereText_some hys)
    | some d =>
      have hblank : ∀ (xs : List Char) (c : RowCondition),
          ∀ x ∈ (xs ++ " WHERE ".toList ++ c.comparison.toList).getLast?, x.isDigit = false := by
        intro xs c
        cases c <;> simp [RowCondition.comparison]
      simp only [toList_whereText_some, ← List.append_assoc] at h
      obtain ⟨hfront, hbound⟩ := append_toDigits_injective (hblank xs c) (hblank ys d) h
      obtain ⟨hwhere, hcd⟩ := eq_of_comparison_eq hbound hfront
      exact ⟨List.append_cancel_right hwhere, by rw [hcd]⟩

theorem eq_of_map_text_eq {c d : Option RowCondition}
    (h : c.map RowCondition.text = d.map RowCondition.text) : c = d := by
  have hwhere : ∀ c, whereText c = ((c.map RowCondition.text).map (" WHERE " ++ ·)).getD "" := by
    intro c
    cases c <;> rfl
  have hnil : ∀ x ∈ ([] : List Char).getLast?, x.isDigit = false := by simp
  apply (whereText_injective hnil hnil _).2
  rw [hwhere, h, ← hwhere]

theorem opening_append_injective {c d : RowNumColumns} {xs ys : List Char}
    (h : c.opening.toList ++ xs = d.opening.toList ++ ys) : c = d ∧ xs = ys := by
  cases c <;> cases d <;> simp_all [RowNumColumns.opening]

theorem closing_not_digit (c : RowNumColumns) (xs : List Char)
    : ∀ x ∈ (xs ++ c.closing.toList).getLast?, x.isDigit = false := by
  cases c <;> simp [RowNumColumns.closing]

theorem toList_text_outer (innerText : String) (columns : RowNumColumns) (source : RowNumSelect)
    (c : Option RowCondition)
    : ((RowNumSelect.outer columns source c).text innerText).toList
        =
      columns.opening.toList ++ (source.text innerText).toList ++ columns.closing.toList
        ++ (whereText c).toList := by
  simp only [text, String.toList_append]

theorem length_le_length_text (innerText : String) (s : RowNumSelect)
    : innerText.toList.length ≤ (s.text innerText).toList.length := by
  induction s with
  | inner => exact Nat.le_refl _
  | outer columns source c ih =>
    rw [toList_text_outer]
    simp only [List.length_append]
    omega

theorem text_outer_ne (innerText : String) (columns : RowNumColumns) (source : RowNumSelect)
    (c : Option RowCondition)
    : (RowNumSelect.outer columns source c).text innerText ≠ innerText := by
  intro h
  have hlength := congrArg (·.toList.length) h
  have hle := length_le_length_text innerText source
  have hopening : 0 < columns.opening.toList.length := by cases columns <;> decide
  simp only [toList_text_outer, List.length_append] at hlength
  omega

theorem text_injective {innerText : String} {s t : RowNumSelect}
    (h : s.text innerText = t.text innerText) : s = t := by
  induction s generalizing t with
  | inner =>
    cases t with
    | inner => rfl
    | outer columns source c => exact absurd h.symm (text_outer_ne innerText columns source c)
  | outer columns source c ih =>
    cases t with
    | inner => exact absurd h (text_outer_ne innerText columns source c)
    | outer columns' source' c' =>
      have hchars := congrArg String.toList h
      rw [toList_text_outer, toList_text_outer] at hchars
      obtain ⟨hfront, rfl⟩ :=
        whereText_injective (closing_not_digit _ _) (closing_not_digit _ _) hchars
      rw [List.append_assoc, List.append_assoc] at hfront
      obtain ⟨rfl, hsource⟩ := opening_append_injective hfront
      rw [ih (String.toList_injective (List.append_cancel_right hsource))]

/-! ### The selects that are written -/

theorem text_atMost (innerText : String) (n : Nat)
    : (RowNumSelect.outer .all .inner (some (.rowNumAtMost n))).text innerText
        =
      s!"SELECT * FROM ({innerText}) WHERE ROWNUM <= {n}" := by
  have hstring : ∀ s : String, toString s = s := fun _ => rfl
  apply String.toList_injective
  simp [text, whereText, RowCondition.text, RowCondition.comparison, RowCondition.bound,
    RowNumColumns.opening, RowNumColumns.closing, hstring]

theorem text_above (innerText : String) (limit : Option Nat) (s : Nat)
    : let limitText :=
        match limit with
        | some n => s!" WHERE ROWNUM <= {n}"
        | none => ""
      (RowNumSelect.outer .all (.outer .numbered .inner (limit.map .rowNumAtMost))
          (some (.numberAbove s))).text innerText
        =
      s!"SELECT * FROM (SELECT r.*, ROWNUM RNUM FROM ({innerText}) r{limitText}) WHERE RNUM > {s}"
    := by
  have hstring : ∀ s : String, toString s = s := fun _ => rfl
  apply String.toList_injective
  cases limit <;>
    simp [text, whereText, RowCondition.text, RowCondition.comparison, RowCondition.bound,
      RowNumColumns.opening, RowNumColumns.closing, hstring]

variable {α : Type}

theorem numberRows_holds_atMost (limit : Option Nat) (rows : List (NumberedRow α))
    : numberRows (holds (limit.map .rowNumAtMost)) 1 rows
        =
      ((takeAtMost limit rows).zipIdx 1).map Prod.swap := by
  cases limit with
  | none =>
    have hnumber := numberRows_eq (fun _ => true) 1 rows
    rw [List.filter_true] at hnumber
    exact hnumber
  | some n =>
    have hnumber := numberRows_atMost (fun _ => true) n 1 rows
    rw [List.filter_true] at hnumber
    exact hnumber

theorem rows_atMost (innerRows : List α) (n : Nat)
    : (RowNumSelect.outer .all .inner (some (.rowNumAtMost n))).rows innerRows
        =
      innerRows.take n := by
  have hnumber := numberRows_holds_atMost (some n) (RowNumSelect.inner.numberedRows innerRows)
  unfold rows
  rw [numberedRows]
  change ((numberRows (holds ((some n).map .rowNumAtMost)) 1 _).map (·.2)).map _ = _
  rw [hnumber, map_snd_map_swap_zipIdx, map_takeAtMost]
  simp [numberedRows, takeAtMost, Function.comp_def]

theorem rows_above (innerRows : List α) (limit : Option Nat) (s : Nat)
    : (RowNumSelect.outer .all (.outer .numbered .inner (limit.map .rowNumAtMost))
          (some (.numberAbove s))).rows innerRows
        =
      (takeAtMost limit innerRows).drop s := by
  have hinner
      : (RowNumSelect.outer .numbered .inner (limit.map .rowNumAtMost)).numberedRows innerRows
          =
        ((takeAtMost limit innerRows).zipIdx 1).map
          fun (row, k) => { row, number := some k } := by
    rw [numberedRows, numberRows_holds_atMost, numberedRows, ← map_takeAtMost, List.zipIdx_map]
    simp [Function.comp_def, RowNumColumns.row]
  have hnumber := numberRows_eq (fun row : NumberedRow α => row.number.any (s < ·)) 1
  have hdrop := map_fst_filter_zipIdx s 1 (takeAtMost limit innerRows)
  rw [Nat.add_sub_cancel] at hdrop
  unfold rows
  rw [numberedRows, hinner]
  change ((numberRows (fun _ (row : NumberedRow α) => row.number.any (s < ·)) 1 _).map (·.2)).map _
    = _
  rw [hnumber, map_snd_map_swap_zipIdx, List.filter_map, List.map_map, ← hdrop]
  rfl

end RowNumSelect

/-! ## Selects -/

/--
A select by what it does to rows: it keeps those of its source that satisfy its conditions, groups
or projects them, drops duplicates, and orders what is left.
-/
structure SelectPlan (α β : Type) where
  source : List α
  condition : α → Bool
  project : List α → List β
  distinct : List β → List β
  order : List β → List β

namespace SelectPlan

variable {α β : Type}

def rows (p : SelectPlan α β) (c : Option RowCondition) : List β :=
  let kept := numberRows (fun k a => p.condition a && c.all (·.holds k { row := a })) 1 p.source
  p.order (p.distinct (p.project (kept.map (·.2))))

/--
What a shape denies, the select does not do.
-/
structure HasShape (p : SelectPlan α β) (shape : SelectShape) : Prop where
  project : shape.grouped = false → ∃ f : α → β, ∀ rows, p.project rows = rows.map f
  distinct : shape.distinct = false → ∀ rows, p.distinct rows = rows
  order : shape.ordered = false → ∀ rows, p.order rows = rows

theorem rows_none (p : SelectPlan α β)
    : p.rows none = p.order (p.distinct (p.project (p.source.filter p.condition))) := by
  have hnumber := numberRows_eq p.condition 1 p.source
  unfold rows
  simp only [Option.all_none, Bool.and_true]
  rw [hnumber, map_snd_map_swap_zipIdx]

-- The select projects its rows one by one, so the first of them can be taken before.
theorem rows_rowNumAtMost {p : SelectPlan α β} {shape : SelectShape} (h : p.HasShape shape)
    (hgrouped : shape.grouped = false) (hdistinct : shape.distinct = false)
    (hordered : shape.ordered = false) (n : Nat)
    : p.rows (some (.rowNumAtMost n)) = (p.rows none).take n := by
  obtain ⟨f, hf⟩ := h.project hgrouped
  have hnumber := numberRows_atMost p.condition n 1 p.source
  rw [rows_none]
  unfold rows
  simp only [h.order hordered, h.distinct hdistinct, hf]
  change ((numberRows (fun k a => p.condition a && decide (k ≤ n)) 1 p.source).map _).map f = _
  rw [hnumber, map_snd_map_swap_zipIdx, Nat.add_sub_cancel, List.map_take]

end SelectPlan

/-! ## Readings -/

/--
What a dialect writes for a range, as SQL: a clause and a condition of the select itself, and the
selects around it.
-/
structure RangeReading where
  clause : RangeClause := .none
  condition : Option RowCondition := none
  select : RowNumSelect := .inner

namespace RangeReading

structure Reads (x : RangeReading) (paging : Paging) (r : RowRange) (shape : SelectShape)
    (innerText : String) : Prop where
  clause : x.clause.tokens = paging.clause r shape
  condition : x.condition.map RowCondition.text = paging.condition? r shape
  select : x.select.text innerText = paging.wrap innerText r shape

variable {paging : Paging} {r : RowRange} {shape : SelectShape} {innerText : String}

theorem Reads.unique {x y : RangeReading} (hx : x.Reads paging r shape innerText)
    (hy : y.Reads paging r shape innerText) : x = y := by
  have hclause : x.clause = y.clause := by
    apply RangeClause.tokens_injective
    rw [hx.clause, hy.clause]
  have hcondition : x.condition = y.condition := by
    apply RowNumSelect.eq_of_map_text_eq
    rw [hx.condition, hy.condition]
  have hselect : x.select = y.select := by
    apply @RowNumSelect.text_injective innerText
    rw [hx.select, hy.select]
  cases x
  cases y
  simp_all

def rows {α β : Type} (x : RangeReading) (plan : SelectPlan α β) : List β :=
  x.select.rows (x.clause.rows (plan.rows x.condition))

end RangeReading

/-! ### The reading of a range -/

def RangeClause.ofRange (paging : Paging) (r : RowRange) (shape : SelectShape) : RangeClause :=
  match paging with
  | .byCaller | .rowNum => .none
  | .limitOffset =>
    match r.count? with
    | some n => if 0 < r.start then .limitOffset n r.start else .limit n
    | .none => if 0 < r.start then .offset r.start else .none
  | .limitStartCount =>
    let n := r.count?.getD Paging.maxCount
    if r.isAll then .none else if 0 < r.start then .limitFrom r.start n else .limit n
  | .fetchFirst =>
    match r.upper?, shape.nested with
    | some n, false => .fetchFirst n
    | _, _ => .none
  | .top =>
    match r.upper?, shape.nested with
    | some n, false => .top n
    | _, _ => .none

theorem RangeClause.tokens_ofRange (paging : Paging) (r : RowRange) (shape : SelectShape)
    : (ofRange paging r shape).tokens = paging.clause r shape := by
  cases paging with
  | byCaller | rowNum => rfl
  | limitOffset =>
    by_cases hstart : 0 < r.start <;> cases hcount : r.count? <;>
      simp [ofRange, Paging.clause, tokens, hstart, hcount]
  | limitStartCount =>
    by_cases hstart : 0 < r.start <;> cases hall : r.isAll <;>
      simp [ofRange, Paging.clause, tokens, hstart, hall]
  | fetchFirst | top =>
    cases hupper : r.upper? <;> cases hnested : shape.nested <;>
      simp [ofRange, Paging.clause, tokens, hupper, hnested]

def RowCondition.ofRange? (paging : Paging) (r : RowRange) (shape : SelectShape)
    : Option RowCondition :=
  match paging with
  | .rowNum => if Paging.isDirect r shape then r.upper?.map .rowNumAtMost else none
  | _ => none

theorem RowCondition.text_ofRange? (paging : Paging) (r : RowRange) (shape : SelectShape)
    : (ofRange? paging r shape).map text = paging.condition? r shape := by
  cases paging with
  | byCaller | limitOffset | limitStartCount | fetchFirst | top => rfl
  | rowNum =>
    simp only [ofRange?, Paging.condition?]
    split
    · rw [Option.map_map]
      rfl
    · rfl

def RowNumSelect.ofRange (paging : Paging) (r : RowRange) (shape : SelectShape) : RowNumSelect :=
  if paging.wraps r shape then
    if r.start = 0 then
      .outer .all .inner (some (.rowNumAtMost (r.upper?.getD 0)))
    else
      .outer .all (.outer .numbered .inner (r.upper?.map .rowNumAtMost))
        (some (.numberAbove r.start))
  else
    .inner

theorem RowNumSelect.text_ofRange (paging : Paging) (r : RowRange) (shape : SelectShape)
    (innerText : String)
    : (ofRange paging r shape).text innerText = paging.wrap innerText r shape := by
  unfold ofRange Paging.wrap
  split
  · split
    · exact text_atMost innerText _
    · exact text_above innerText r.upper? r.start
  · rfl

namespace RangeReading

def ofRange (paging : Paging) (r : RowRange) (shape : SelectShape) : RangeReading where
  clause := .ofRange paging r shape
  condition := RowCondition.ofRange? paging r shape
  select := .ofRange paging r shape

theorem reads_ofRange (paging : Paging) (r : RowRange) (shape : SelectShape) (innerText : String)
    : (ofRange paging r shape).Reads paging r shape innerText where
  clause := RangeClause.tokens_ofRange paging r shape
  condition := RowCondition.text_ofRange? paging r shape
  select := RowNumSelect.text_ofRange paging r shape innerText

theorem ofRange_of_isAll {r : RowRange} (h : r.isAll = true) (paging : Paging)
    (shape : SelectShape) : ofRange paging r shape = {} := by
  obtain ⟨start, stop⟩ := r
  obtain ⟨rfl, rfl⟩ : start = 0 ∧ stop = none := by simpa [RowRange.isAll] using h
  cases paging with
  | byCaller | limitOffset | limitStartCount | fetchFirst | top => rfl
  | rowNum =>
    simp [ofRange, RangeClause.ofRange, RowCondition.ofRange?, RowNumSelect.ofRange, Paging.wraps,
      RowRange.upper?, RowRange.isAll]

end RangeReading

/-! ### The rows of a range -/

namespace RangeClause

variable {α : Type} (r : RowRange) (shape : SelectShape) (rows : List α)

theorem rows_limitOffset : (ofRange .limitOffset r shape).rows rows = r.rows rows := by
  rw [RowRange.rows_eq_takeAtMost]
  by_cases hstart : 0 < r.start
  · cases hcount : r.count? <;> simp [ofRange, RangeClause.rows, takeAtMost, hstart, hcount]
  · have hzero : r.start = 0 := by omega
    cases hcount : r.count? <;> simp [ofRange, RangeClause.rows, takeAtMost, hzero, hcount]

-- A range without an end is cut off after `maxCount` rows, which is more than there are.
theorem rows_limitStartCount (hlength : rows.length ≤ Paging.maxCount)
    : (ofRange .limitStartCount r shape).rows rows = r.rows rows := by
  have hcount : ∀ rows : List α, rows.length ≤ Paging.maxCount →
      rows.take (r.count?.getD Paging.maxCount) = takeAtMost r.count? rows := by
    intro rows hlength
    cases r.count? with
    | none => exact List.take_of_length_le hlength
    | some n => rfl
  rw [RowRange.rows_eq_takeAtMost]
  by_cases hall : r.isAll
  · obtain ⟨hzero, hstop⟩ : r.start = 0 ∧ r.stop = Option.none := by
      simpa [RowRange.isAll] using hall
    simp [ofRange, hall, RangeClause.rows, RowRange.count?, RowRange.upper?, hzero, hstop,
      takeAtMost]
  · by_cases hstart : 0 < r.start
    · have hdrop := hcount (rows.drop r.start) (by rw [List.length_drop]; omega)
      simpa [ofRange, hall, hstart, RangeClause.rows] using hdrop
    · have hzero : r.start = 0 := by omega
      simpa [ofRange, hall, hzero, RangeClause.rows] using hcount rows hlength

theorem drop_rows_atMost {paging : Paging} (hpaging : paging = .fetchFirst ∨ paging = .top)
    (hnested : shape.nested = false)
    : ((ofRange paging r shape).rows rows).drop r.start = r.rows rows := by
  rw [RowRange.rows_eq_drop]
  obtain rfl | rfl := hpaging
  · cases hupper : r.upper? <;> simp [ofRange, hnested, hupper, RangeClause.rows, takeAtMost]
  · cases hupper : r.upper? <;> simp [ofRange, hnested, hupper, RangeClause.rows, takeAtMost]

end RangeClause

namespace RangeReading

variable {α β : Type} {plan : SelectPlan α β}

theorem rows_clause (clause : RangeClause)
    : ({ clause } : RangeReading).rows plan = clause.rows (plan.rows none) := by
  simp [rows, RowNumSelect.rows, RowNumSelect.numberedRows, Function.comp_def]

theorem rows_inner (condition : Option RowCondition)
    : ({ condition } : RangeReading).rows plan = plan.rows condition := by
  simp [rows, RowNumSelect.rows, RowNumSelect.numberedRows, Function.comp_def, RangeClause.rows]

theorem isSome_upper?_of_wraps {r : RowRange} {shape : SelectShape}
    (hwraps : Paging.rowNum.wraps r shape) (hstart : r.start = 0) : r.upper?.isSome := by
  unfold RowRange.upper?
  cases hstop : r.stop with
  | none => simp [Paging.wraps, RowRange.isAll, hstart, hstop] at hwraps
  | some stop => rfl

theorem count_rowNum (r : RowRange) (shape : SelectShape)
    : [r.isAll, (Paging.rowNum.condition? r shape).isSome,
        Paging.rowNum.wraps r shape].count true = 1 := by
  simp only [Paging.condition?, Paging.wraps, RowRange.upper?]
  cases hall : r.isAll <;> cases hdirect : Paging.isDirect r shape <;> cases hstop : r.stop <;>
    simp_all [RowRange.isAll, Paging.isDirect]

variable (r : RowRange) (shape : SelectShape)

theorem rows_ofRange_isDirect (hshape : plan.HasShape shape) (hdirect : Paging.isDirect r shape)
    : (ofRange .rowNum r shape).rows plan = r.rows (plan.rows none) := by
  obtain ⟨⟨⟨hstart, hdistinct⟩, hordered⟩, hgrouped⟩ : ((r.start = 0 ∧ shape.distinct = false)
      ∧ shape.ordered = false) ∧ shape.grouped = false := by
    simpa [Paging.isDirect] using hdirect
  have hreading : ofRange .rowNum r shape = { condition := r.upper?.map .rowNumAtMost } := by
    simp [ofRange, RangeClause.ofRange, RowCondition.ofRange?, RowNumSelect.ofRange, Paging.wraps,
      hdirect]
  rw [hreading, rows_inner, RowRange.rows_eq_drop, hstart, List.drop_zero]
  cases r.upper? with
  | none => rfl
  | some n => exact SelectPlan.rows_rowNumAtMost hshape hgrouped hdistinct hordered n

theorem rows_ofRange_wraps (hwraps : Paging.rowNum.wraps r shape)
    : (ofRange .rowNum r shape).rows plan = r.rows (plan.rows none) := by
  have hreading : ofRange .rowNum r shape = { select := .ofRange .rowNum r shape } := by
    simp only [Paging.wraps, Bool.and_eq_true, Bool.not_eq_true'] at hwraps
    simp [ofRange, RangeClause.ofRange, RowCondition.ofRange?, hwraps.2]
  rw [hreading, RowRange.rows_eq_drop, RowNumSelect.ofRange, if_pos hwraps]
  by_cases hstart : r.start = 0
  · obtain ⟨n, hupper⟩ := Option.isSome_iff_exists.mp (isSome_upper?_of_wraps hwraps hstart)
    rw [if_pos hstart, hupper, hstart, List.drop_zero]
    exact RowNumSelect.rows_atMost ..
  · rw [if_neg hstart]
    exact RowNumSelect.rows_above ..

theorem rows_ofRange_rowNum (hshape : plan.HasShape shape)
    : (ofRange .rowNum r shape).rows plan = r.rows (plan.rows none) := by
  by_cases hall : r.isAll
  · obtain ⟨hstart, hstop⟩ : r.start = 0 ∧ r.stop = none := by simpa [RowRange.isAll] using hall
    rw [ofRange_of_isAll hall, rows_inner]
    simp [RowRange.rows, hstart, hstop]
  · by_cases hdirect : Paging.isDirect r shape
    · exact rows_ofRange_isDirect r shape hshape hdirect
    · apply rows_ofRange_wraps
      simp [Paging.wraps, hall, hdirect]

theorem rows_ofRange (paging : Paging) (hnested : shape.nested = false)
    (hshape : plan.HasShape shape) (hlength : (plan.rows none).length < Nat.pow 2 64)
    : takeAtMost (paging.maxRows? r)
          (((ofRange paging r shape).rows plan).drop (paging.skipRows r shape))
        =
      r.rows (plan.rows none) := by
  have hmaxCount : (plan.rows none).length ≤ Paging.maxCount := Nat.le_of_lt_succ hlength
  -- Clauses come after all else the select does, so they act on its rows as they are.
  have hclause : paging ≠ .rowNum →
      (ofRange paging r shape).rows plan
        = (RangeClause.ofRange paging r shape).rows (plan.rows none) := by
    intro hrowNum
    rw [← rows_clause]
    cases paging with
    | rowNum => exact absurd rfl hrowNum
    | byCaller | limitOffset | limitStartCount | fetchFirst | top => rfl
  cases paging with
  | byCaller =>
    rw [hclause (by decide), RowRange.rows_eq_takeAtMost]
    rfl
  | limitOffset =>
    rw [hclause (by decide), RangeClause.rows_limitOffset]
    rfl
  | limitStartCount =>
    rw [hclause (by decide), RangeClause.rows_limitStartCount _ _ _ hmaxCount]
    rfl
  | fetchFirst =>
    rw [hclause (by decide), Paging.skipRows, hnested]
    exact RangeClause.drop_rows_atMost r shape _ (.inl rfl) hnested
  | top =>
    rw [hclause (by decide), Paging.skipRows, hnested]
    exact RangeClause.drop_rows_atMost r shape _ (.inr rfl) hnested
  | rowNum => exact rows_ofRange_rowNum r shape hshape

end RangeReading

theorem rows_of_range {α β : Type} (paging : Paging) (r : RowRange) (shape : SelectShape)
    (innerText : String) (plan : SelectPlan α β) (hnested : shape.nested = false)
    (hshape : plan.HasShape shape) (hlength : (plan.rows none).length < Nat.pow 2 64)
    : (∃ x : RangeReading, x.Reads paging r shape innerText)
        ∧ (∀ x : RangeReading, x.Reads paging r shape innerText →
            takeAtMost (paging.maxRows? r) ((x.rows plan).drop (paging.skipRows r shape))
              =
            r.rows (plan.rows none))
        ∧ (∀ n, r.upper? = some n → r.start ≤ n)
        ∧ (Paging.rowNum.wraps r shape → r.start = 0 → r.upper?.isSome)
        ∧ [r.isAll, (Paging.rowNum.condition? r shape).isSome,
            Paging.rowNum.wraps r shape].count true = 1 := by
  have hreads := RangeReading.reads_ofRange paging r shape innerText
  refine ⟨⟨_, hreads⟩, ?_, ?_, RangeReading.isSome_upper?_of_wraps,
    RangeReading.count_rowNum r shape⟩
  · intro x hx
    rw [hx.unique hreads]
    exact RangeReading.rows_ofRange r shape paging hnested hshape hlength
  · intro n hn
    exact RowRange.start_le_of_upper? hn

theorem rows_of_range_ordered
    : let plan : SelectPlan Nat Nat :=
        { source := [1, 2, 3, 4, 5], condition := (· ≠ 3), project := id, distinct := id,
          order := List.reverse }
      let shape : SelectShape := { ordered := true }
      plan.HasShape shape ∧ (plan.rows none).length < Nat.pow 2 64
        ∧ ∃ x : RangeReading,
            x.Reads .rowNum { start := 1, stop := some 3 } shape "SELECT t.A FROM T t"
              ∧ x.rows plan = [4, 2] := by
  intro plan shape
  have hshape : plan.HasShape shape := by
    refine ⟨fun _ => ⟨id, fun rows => ?_⟩, fun _ _ => rfl, fun h => ?_⟩
    · exact (List.map_id rows).symm
    · cases h
  have hlength : (plan.rows none).length < Nat.pow 2 64 := by decide
  obtain ⟨⟨x, hx⟩, hrows, _⟩ :=
    rows_of_range .rowNum { start := 1, stop := some 3 } shape "SELECT t.A FROM T t" plan rfl hshape
      hlength
  exact ⟨hshape, hlength, x, hx, hrows x hx⟩

end SqlDialect
