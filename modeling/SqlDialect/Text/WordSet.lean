/-!
This module contains sets of words. A set keeps its words in increasing order of code points, which
is the order in which they are listed.
-/

namespace SqlDialect

def insertWord (w : String) : List String → List String
  | [] => [w]
  | v :: vs => if w < v then w :: v :: vs else if w = v then v :: vs else v :: insertWord w vs

theorem mem_insertWord {x w : String} {vs : List String} :
    x ∈ insertWord w vs ↔ x = w ∨ x ∈ vs := by
  induction vs with
  | nil => simp [insertWord]
  | cons v vs ih =>
    simp only [insertWord]
    split
    next => simp
    next =>
      split
      next h => simp [h]
      next => simp only [List.mem_cons, ih]; grind

theorem pairwise_insertWord {w : String} {vs : List String} (h : vs.Pairwise (· < ·)) :
    (insertWord w vs).Pairwise (· < ·) := by
  induction vs with
  | nil => simp [insertWord]
  | cons v vs ih =>
    have hv := List.pairwise_cons.1 h
    simp only [insertWord]
    split
    next hlt =>
      refine List.pairwise_cons.2 ⟨fun x hx => ?_, h⟩
      rcases List.mem_cons.1 hx with rfl | hx
      · exact hlt
      · exact String.lt_trans hlt (hv.1 x hx)
    next hlt =>
      split
      next => exact h
      next hne =>
        refine List.pairwise_cons.2 ⟨fun x hx => ?_, ih hv.2⟩
        rcases mem_insertWord.1 hx with rfl | hx
        · exact Classical.byContradiction fun hvx =>
            hne (String.le_antisymm (String.not_lt.1 hvx) (String.not_lt.1 hlt))
        · exact hv.1 x hx

structure WordSet where
  toList : List String
  sorted : toList.Pairwise (· < ·)

namespace WordSet

@[ext]
theorem ext {s t : WordSet} (h : s.toList = t.toList) : s = t := by
  cases s; cases t; cases h; rfl

def empty : WordSet := ⟨[], .nil⟩

instance : Inhabited WordSet := ⟨empty⟩

instance : Membership String WordSet where
  mem s w := w ∈ s.toList

instance (w : String) (s : WordSet) : Decidable (w ∈ s) :=
  inferInstanceAs (Decidable (w ∈ s.toList))

def insert (s : WordSet) (w : String) : WordSet :=
  ⟨insertWord w s.toList, pairwise_insertWord s.sorted⟩

def insertMany (s : WordSet) (ws : List String) : WordSet :=
  ws.foldl insert s

def ofList (ws : List String) : WordSet :=
  empty.insertMany ws

def erase (s : WordSet) (w : String) : WordSet :=
  ⟨s.toList.filter (· ≠ w), s.sorted.filter _⟩

def size (s : WordSet) : Nat := s.toList.length

@[simp]
theorem mem_toList {s : WordSet} {w : String} : w ∈ s.toList ↔ w ∈ s := Iff.rfl

@[simp]
theorem not_mem_empty (w : String) : w ∉ empty := List.not_mem_nil

@[simp]
theorem mem_insert {s : WordSet} {w x : String} : x ∈ s.insert w ↔ x = w ∨ x ∈ s :=
  mem_insertWord

@[simp]
theorem mem_insertMany {s : WordSet} {ws : List String} {x : String} :
    x ∈ s.insertMany ws ↔ x ∈ ws ∨ x ∈ s := by
  induction ws generalizing s with
  | nil => simp [insertMany]
  | cons w ws ih =>
    have : s.insertMany (w :: ws) = (s.insert w).insertMany ws := rfl
    rw [this, ih, mem_insert, List.mem_cons]
    grind

@[simp]
theorem mem_ofList {ws : List String} {x : String} : x ∈ ofList ws ↔ x ∈ ws := by
  simp [ofList]

@[simp]
theorem mem_erase {s : WordSet} {w x : String} : x ∈ s.erase w ↔ x ∈ s ∧ x ≠ w := by
  change x ∈ s.toList.filter (· ≠ w) ↔ _
  simp

end WordSet

end SqlDialect
