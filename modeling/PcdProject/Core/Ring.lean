import Mathlib.Data.Nat.ModEq
import Mathlib.Tactic.Common

/-!
# Circular buffers

The entries of a ring of `n` cells lie from index `head` on, wrapping around behind the last cell.
`Holds` relates the cells to the list of the entries. `push` is what a bounded queue does on that
list: a push that would make it longer than its capacity drops the oldest entry.
-/

namespace Ring

variable {α : Type*} {n : ℕ}

/-- The entries `xs` lie in the cells from index `head` on. -/
structure Holds (cells : Vector α n) (head : ℕ) (xs : List α) : Prop where
  length_le : xs.length ≤ n
  getElem?_eq : ∀ k < xs.length, cells[(head + k) % n]? = xs[k]?

/-- Append an entry, and drop the oldest one if there are more than `capacity`. -/
def push (capacity : ℕ) (xs : List α) (x : α) : List α :=
  if capacity < (xs ++ [x]).length then (xs ++ [x]).tail else xs ++ [x]

variable {cells : Vector α n} {head : ℕ} {x : α} {xs : List α}

/-- Less than one turn away from the head no cell comes twice. -/
lemma index_ne {j k : ℕ} (hjk : j < k) (hk : k < n) : (head + j) % n ≠ (head + k) % n := by
  intro h
  have hmod : j ≡ k [MOD n] := Nat.ModEq.add_left_cancel' head h
  have heq := hmod.eq_of_lt_of_lt (hjk.trans hk) hk
  omega

/-- A push loses the oldest entries only, and none if there is room. -/
lemma push_eq (capacity : ℕ) (xs : List α) (x : α) :
    ∃ past, xs ++ [x] = past ++ push capacity xs x ∧ (xs.length < capacity → past = []) := by
  unfold push
  split_ifs with hfull
  · refine ⟨(xs ++ [x]).take 1, ?_, ?_⟩
    · rw [← List.drop_one, List.take_append_drop]
    · intro hroom
      rw [List.length_append, List.length_singleton] at hfull
      omega
  · exact ⟨[], rfl, fun _ => rfl⟩

lemma holds_nil : Holds cells head [] := ⟨Nat.zero_le n, by simp⟩

/-- The oldest entry is in the cell at `head`. -/
lemma Holds.front (h : Holds cells head (x :: xs)) (hhead : head < n) :
    cells[head]? = some x := by
  have hzero := h.getElem?_eq 0 (by simp)
  simpa [Nat.mod_eq_of_lt hhead] using hzero

/-- Moving the head on drops the oldest entry. -/
lemma Holds.pop (h : Holds cells head (x :: xs)) : Holds cells ((head + 1) % n) xs where
  length_le := (Nat.le_succ _).trans h.length_le
  getElem?_eq := by
    intro k hk
    have hsucc := h.getElem?_eq (k + 1) (by simpa using hk)
    rw [List.getElem?_cons_succ] at hsucc
    rw [Nat.mod_add_mod, ← hsucc]
    congr 2
    omega

/-- Writing into the first free cell appends an entry. -/
lemma Holds.push (h : Holds cells head xs) (hroom : xs.length < n) (x : α)
    (hi : (head + xs.length) % n < n) :
    Holds (cells.set ((head + xs.length) % n) x) head (xs ++ [x]) where
  length_le := by
    rw [List.length_append, List.length_singleton]
    exact hroom
  getElem?_eq := by
    intro k hk
    rw [List.length_append, List.length_singleton] at hk
    rcases Nat.lt_succ_iff_lt_or_eq.mp hk with hlt | rfl
    · rw [Vector.getElem?_set_ne hi (index_ne hlt hroom).symm, List.getElem?_append_left hlt]
      exact h.getElem?_eq k hlt
    · simp [Vector.getElem?_set_self hi]

end Ring
