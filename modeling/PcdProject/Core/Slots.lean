import Mathlib.Data.List.Basic
import Mathlib.Tactic.Common

/-!
# Allocated blocks of memory

A block is the list of its cells, `none` standing for a cell that was never written. Every access
is checked: loading an unwritten cell or one outside of the block, and storing outside of the
block, is a fault (`none`). `Holds m xs` says that the block starts with the values `xs`.
-/

/-- A block of memory cells. -/
abbrev Slots (α : Type*) := List (Option α)

namespace Slots

variable {α : Type*}

/-- A fresh block of `n` cells. -/
def malloc (n : ℕ) : Slots α := List.replicate n none

/-- Change the number of cells to `n`; the cells up to the smaller of the two sizes keep their
values. -/
def realloc (m : Slots α) (n : ℕ) : Slots α := m.take n ++ List.replicate (n - m.length) none

def load (m : Slots α) (i : ℕ) : Option α := m[i]?.join

def store (m : Slots α) (i : ℕ) (a : α) : Option (Slots α) :=
  if i < m.length then some (m.set i (some a)) else none

/-- Move the `n` cells from index 1 on down by one, as `memmove(&m[0], &m[1], n)` does. -/
def moveDown (m : Slots α) (n : ℕ) : Option (Slots α) :=
  if n + 1 ≤ m.length then some ((m.drop 1).take n ++ m.drop n) else none

/-- Move the `n` cells behind index `i` down by one, as `memmove(&m[i], &m[i + 1], n)` does. -/
def closeGap (m : Slots α) (i n : ℕ) : Option (Slots α) :=
  (moveDown (m.drop i) n).map (m.take i ++ ·)

/-- The block starts with the values `xs`. -/
def Holds (m : Slots α) (xs : List α) : Prop := xs.map some <+: m

variable {m : Slots α} {a : α} {xs ys : List α} {n : ℕ}

@[simp] lemma length_malloc : (malloc n : Slots α).length = n := by simp [malloc]

@[simp] lemma length_realloc : (realloc m n).length = n := by simp [realloc]; omega

@[simp] lemma holds_nil : Holds m [] := List.nil_prefix

lemma Holds.length_le (h : Holds m xs) : xs.length ≤ m.length := by
  simpa using List.IsPrefix.length_le h

lemma Holds.realloc (h : Holds m xs) (hn : xs.length ≤ n) : Holds (m.realloc n) xs := by
  have htake : xs.map some <+: m.take n := List.prefix_take_iff.mpr ⟨h, by simpa using hn⟩
  exact htake.trans (List.prefix_append _ _)

/-- A cell of the initial part is loaded without a fault. -/
lemma load_append (xs : List α) (tail : Slots α) :
    load (xs.map some ++ some a :: tail) xs.length = some a := by
  simp [load]

/-- Storing into the cell right behind an initial part. -/
lemma store_append (xs : List α) (a : α) (c : Option α) (tail : Slots α) :
    store (xs.map some ++ c :: tail) xs.length a = some (xs.map some ++ some a :: tail) := by
  simp [store, List.set_append_right]

lemma Holds.moveDown (h : Holds m (a :: xs)) :
    ∃ m', m.moveDown xs.length = some m' ∧ m'.length = m.length ∧ Holds m' xs := by
  obtain ⟨tail, rfl⟩ := h
  refine ⟨_, if_pos (by simp), ?_, ?_⟩
  · simp; omega
  · simp [Holds]

lemma closeGap_append (xs ys : List α) (c : Option α) :
    closeGap (xs.map some ++ c :: ys.map some) xs.length ys.length =
      some (xs.map some ++ (ys.map some ++ (c :: ys.map some).drop ys.length)) := by
  have hdrop : (xs.map some ++ c :: ys.map some).drop xs.length = c :: ys.map some :=
    List.drop_left' (by simp)
  have htake : (xs.map some ++ c :: ys.map some).take xs.length = xs.map some :=
    List.take_left' (by simp)
  have hmove : moveDown (c :: ys.map some) ys.length
      = some (ys.map some ++ (c :: ys.map some).drop ys.length) := by
    simp [moveDown, List.take_of_length_le]
  rw [closeGap, hdrop, htake, hmove, Option.map_some]

/-! ### Blocks in which every cell is written -/

section Written

variable {p : α → Bool} {i : ℕ}

/-- The index from `i` on, with `k` cells to go, of the first cell whose value meets `p`. -/
def search (p : α → Bool) (m : Slots α) : ℕ → ℕ → Option (Option ℕ)
  | _, 0     => some none
  | i, k + 1 => (m.load i).bind fun a => if p a then some (some i) else search p m (i + 1) k

lemma load_map_some (xs : List α) (i : ℕ) : load (xs.map some) i = xs[i]? := by
  rw [load, List.getElem?_map]
  cases xs[i]? <;> rfl

lemma store_map_some (hi : i < xs.length) (a : α) :
    store (xs.map some) i a = some ((xs.set i a).map some) := by
  rw [store, if_pos (by simpa using hi), List.map_set]

/-- One more cell, and a value in it. -/
lemma store_realloc_map_some (xs : List α) (a : α) :
    store (realloc (xs.map some) (xs.length + 1)) xs.length a = some ((xs ++ [a]).map some) := by
  have hroom : realloc (xs.map some) (xs.length + 1) = xs.map some ++ none :: [] := by
    rw [realloc, List.take_of_length_le (by simp)]
    simp
  rw [hroom, store_append, List.map_append]
  rfl

/-- A cell less, the one at index `i`. -/
lemma closeGap_map_some (hi : i < xs.length) :
    ∃ m, closeGap (xs.map some) i (xs.length - i - 1) = some m ∧
      realloc m (xs.length - 1) = (xs.eraseIdx i).map some := by
  have hsplit : xs = xs.take i ++ xs[i] :: xs.drop (i + 1) := by simp
  have hlength : (xs.take i).length = i := List.length_take_of_le (Nat.le_of_lt hi)
  have hgap := closeGap_append (xs.take i) (xs.drop (i + 1)) (some xs[i])
  rw [← List.map_cons, ← List.map_append, ← hsplit, hlength, List.length_drop,
    ← Nat.sub_sub] at hgap
  refine ⟨_, hgap, ?_⟩
  have hkept : xs.length - 1
      = ((xs.take i).map some ++ (xs.drop (i + 1)).map (some : α → _)).length := by
    simp only [List.length_append, List.length_map, hlength, List.length_drop]
    omega
  rw [realloc, hkept, ← List.append_assoc, List.take_left' rfl, List.eraseIdx_eq_take_drop_succ,
    List.map_append]
  simp

/-- The cells in front of index `i` hold `pre`. -/
lemma search_append (p : α → Bool) (pre xs : List α) :
    search p ((pre ++ xs).map some) pre.length xs.length
      = some ((xs.findIdx? p).map (· + pre.length)) := by
  induction xs generalizing pre with
  | nil => simp [search]
  | cons a xs ih =>
    have hload : load ((pre ++ a :: xs).map some) pre.length = some a := by
      rw [load_map_some, List.getElem?_append_right (Nat.le_refl _), Nat.sub_self]
      rfl
    rw [List.length_cons, search, hload, Option.bind_some, List.findIdx?_cons]
    split_ifs with ha
    · simp
    · have hnext := ih (pre ++ [a])
      simp only [List.append_assoc, List.singleton_append, List.length_append,
        List.length_singleton] at hnext
      rw [hnext, Option.map_map]
      congr 2
      funext k
      simp only [Function.comp_apply]
      omega

lemma search_map_some (p : α → Bool) (xs : List α) :
    search p (xs.map some) 0 xs.length = some (xs.findIdx? p) := by
  have hsearch := search_append p [] xs
  simpa using hsearch

end Written

end Slots
