import Mathlib.Data.List.Basic
import Mathlib.Tactic.Common

/-!
# Two queues that belong together

Two queues whose heads are going to be taken together: customers and the places that are free for
them, connections and the jobs that will be served on them. `Matched R xs ys` says that the
elements of `xs` belong, one by one, to the first ones of `ys`. It survives what leaves these first
ones in their places.
-/

namespace QueuePairing

variable {α β : Type*} {R S : α → β → Prop} {x : α} {y : β} {xs : List α} {ys zs : List β}

def Matched (R : α → β → Prop) (xs : List α) (ys : List β) : Prop :=
  ∀ (k : ℕ) (x : α), xs[k]? = some x → ∃ y : β, ys[k]? = some y ∧ R x y

namespace Matched

lemma nil : Matched R [] ys := by
  rintro k x ⟨⟩

lemma mono (h : Matched R xs ys) (hRS : ∀ x y, R x y → S x y) : Matched S xs ys := by
  intro k x hx
  obtain ⟨y, hy, hxy⟩ := h k x hx
  exact ⟨y, hy, hRS x y hxy⟩

/-- Only the first elements of the other queue matter. -/
lemma of_take_prefix (h : Matched R xs ys) (hzs : ys.take xs.length <+: zs) : Matched R xs zs := by
  intro k x hx
  obtain ⟨y, hy, hxy⟩ := h k x hx
  obtain ⟨hlt, -⟩ := List.getElem?_eq_some_iff.mp hx
  have htake : (ys.take xs.length)[k]? = some y := by
    rw [List.getElem?_take_of_lt hlt]
    exact hy
  obtain ⟨hlt', -⟩ := List.getElem?_eq_some_iff.mp htake
  obtain ⟨rest, rfl⟩ := hzs
  refine ⟨y, ?_, hxy⟩
  rw [List.getElem?_append_left hlt']
  exact htake

lemma extend (h : Matched R xs ys) (hzs : ys <+: zs) : Matched R xs zs :=
  h.of_take_prefix ((List.take_prefix _ _).trans hzs)

lemma head (h : Matched R (x :: xs) (y :: ys)) : R x y := by
  obtain ⟨y', hy', hxy⟩ := h 0 x rfl
  cases hy'
  exact hxy

/-- The heads leave together. -/
lemma tail (h : Matched R (x :: xs) (y :: ys)) : Matched R xs ys :=
  fun k x' hx' => h (k + 1) x' hx'

/-- A new element joins when it is its turn. -/
lemma concat (h : Matched R xs ys) (hy : ys[xs.length]? = some y) (hxy : R x y) :
    Matched R (xs ++ [x]) ys := by
  intro k x' hx'
  rcases Nat.lt_or_ge k xs.length with hlt | hge
  · rw [List.getElem?_append_left hlt] at hx'
    exact h k x' hx'
  · obtain ⟨hlt, rfl⟩ := List.getElem?_eq_some_iff.mp hx'
    rw [List.length_append, List.length_singleton] at hlt
    obtain rfl : k = xs.length := by omega
    rw [List.getElem_concat_length rfl]
    exact ⟨y, hy, hxy⟩

end Matched

end QueuePairing
