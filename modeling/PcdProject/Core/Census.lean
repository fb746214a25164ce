import Mathlib.Data.Bool.Basic
import Mathlib.Data.List.Basic

/-!
# Counting threads

The threads of a system are a list of control locations, and `countP p` counts the threads at a
location that satisfies `p`. These are the facts about one thread that moves.
-/

namespace Census

variable {α : Type*} {p : α → Bool} {pcs : List α} {w : ℕ} {pc : α}

/-- How a count changes when the thread `w` moves from `pc` to `pc'`. -/
lemma countP_set (p : α → Bool) (pc' : α) (hpc : pcs[w]? = some pc) :
    (pcs.set w pc').countP p + (p pc).toNat = pcs.countP p + (p pc').toNat := by
  induction pcs generalizing w with
  | nil => simp at hpc
  | cons x pcs ih =>
    cases w with
    | zero =>
      simp only [List.getElem?_cons_zero, Option.some.injEq] at hpc
      subst hpc
      simp only [List.set_cons_zero, List.countP_cons]
      cases p x <;> cases p pc' <;> simp
    | succ w =>
      have := ih (w := w) (by simpa using hpc)
      simp only [List.set_cons_succ, List.countP_cons]
      omega

/-- A thread that does not begin to satisfy `p` leaves no more of them. -/
lemma countP_set_le {pc' : α} (hpc : pcs[w]? = some pc) (hp : p pc' = true → p pc = true) :
    (pcs.set w pc').countP p ≤ pcs.countP p := by
  have hset := countP_set p pc' hpc
  have hle := Bool.toNat_le_toNat hp
  omega

/-- A thread that does not cease to satisfy `p` leaves no fewer of them. -/
lemma le_countP_set {pc' : α} (hpc : pcs[w]? = some pc) (hp : p pc = true → p pc' = true) :
    pcs.countP p ≤ (pcs.set w pc').countP p := by
  have hset := countP_set p pc' hpc
  have hle := Bool.toNat_le_toNat hp
  omega

/-- A thread that satisfies `p` is counted. -/
lemma countP_pos (hpc : pcs[w]? = some pc) (hp : p pc = true) : 0 < pcs.countP p :=
  List.countP_pos_iff.mpr ⟨pc, List.mem_of_getElem? hpc, hp⟩

end Census
