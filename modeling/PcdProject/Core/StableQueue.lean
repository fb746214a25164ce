import Mathlib.Data.List.DropRight
import Mathlib.Data.List.Perm.Basic
import Mathlib.Data.Multiset.ZeroCons
import Mathlib.Order.Lattice

/-!
# Stable priority queues

A queue serves the elements of highest key first, and elements of equal key in the order of their
arrival. `best` says this on the list of the waiting elements in arrival order; `insert` keeps the
list sorted instead, by searching for the place of a new element from the back. `StableSort`
relates the two lists, and is preserved when an element arrives or is served.
-/

namespace StableQueue

variable {α P : Type*} [LinearOrder P] (key : α → P)

/-- Insert `a` in front of the elements at the back that have a strictly smaller key. -/
def insert (a : α) (xs : List α) : List α :=
  xs.rdropWhile (fun x => key x < key a) ++ a :: xs.rtakeWhile (fun x => key x < key a)

/-- The first of the elements of highest key, and the elements that remain without it. -/
def best : List α → Option (α × List α)
  | []      => none
  | a :: as =>
    match best as with
    | none         => some (a, [])
    | some (b, bs) => if key a < key b then some (b, a :: bs) else some (a, as)

/-- `xs` is the list `arrived` sorted by non-increasing key, elements of equal key in the order of
their arrival. -/
structure StableSort (arrived xs : List α) : Prop where
  sorted : xs.Pairwise fun a b => key b ≤ key a
  stable : ∀ p, xs.filter (fun x => key x = p) = arrived.filter (fun x => key x = p)

variable {key} {a x : α} {arrived rest xs ys zs : List α}

/-! ### The first element of highest key -/

@[simp] lemma best_eq_none : best key xs = none ↔ xs = [] := by
  cases xs with
  | nil => simp [best]
  | cons a as =>
    simp only [best, reduceCtorEq, iff_false]
    cases best key as with
    | none => simp
    | some b =>
      dsimp only
      split_ifs <;> simp

/-- `best` takes out the element before which all keys are smaller and after which none is
larger. -/
lemma best_eq_some_iff : best key xs = some (x, rest) ↔
    ∃ ys zs, xs = ys ++ x :: zs ∧ rest = ys ++ zs ∧
      (∀ y ∈ ys, key y < key x) ∧ ∀ z ∈ zs, key z ≤ key x := by
  induction xs generalizing x rest with
  | nil => simp [best]
  | cons a as ih =>
    constructor
    · intro h
      cases hb : best key as with
      | none =>
        rw [best_eq_none] at hb
        subst hb
        obtain ⟨rfl, rfl⟩ : a = x ∧ [] = rest := by simpa [best] using h
        exact ⟨[], [], rfl, rfl, by simp, by simp⟩
      | some b =>
        obtain ⟨ys, zs, has, hrest, hys, hzs⟩ := ih.mp hb
        simp only [best, hb] at h
        split_ifs at h with hlt
        · obtain ⟨rfl, rfl⟩ : b.1 = x ∧ a :: b.2 = rest := by simpa using h
          refine ⟨a :: ys, zs, by rw [has, List.cons_append], by rw [hrest, List.cons_append],
            ?_, hzs⟩
          simpa using ⟨hlt, hys⟩
        · obtain ⟨rfl, rfl⟩ : a = x ∧ as = rest := by simpa using h
          refine ⟨[], as, rfl, rfl, by simp, ?_⟩
          intro z hz
          have hba : key b.1 ≤ key a := not_lt.mp hlt
          rw [has] at hz
          rcases List.mem_append.mp hz with hz | hz
          · exact (hys z hz).le.trans hba
          · rcases List.mem_cons.mp hz with rfl | hz
            · exact hba
            · exact (hzs z hz).trans hba
    · rintro ⟨ys, zs, hxs, rfl, hys, hzs⟩
      cases ys with
      | nil =>
        obtain ⟨rfl, rfl⟩ : a = x ∧ as = zs := by simpa using hxs
        cases hb : best key as with
        | none => simp_all [best]
        | some b =>
          obtain ⟨ys', zs', has, -, -, -⟩ := ih.mp hb
          have hle : key b.1 ≤ key a := hzs b.1 (by simp [has])
          simp [best, hb, hle.not_gt]
      | cons y ys =>
        obtain ⟨rfl, rfl⟩ : a = y ∧ as = ys ++ x :: zs := by simpa using hxs
        have hb : best key (ys ++ x :: zs) = some (x, ys ++ zs) :=
          ih.mpr ⟨ys, zs, rfl, rfl, fun y hy => hys y (by simp [hy]), hzs⟩
        have hax : key a < key x := hys a (by simp)
        simp [best, hb, hax]

/-! ### Insertion from the back -/

lemma insert_perm (key : α → P) (a : α) (xs : List α) : (insert key a xs).Perm (a :: xs) := by
  refine List.perm_middle.trans (List.Perm.cons a ?_)
  rw [List.rdropWhile_append_rtakeWhile]

lemma length_insert (key : α → P) (a : α) (xs : List α) :
    (insert key a xs).length = xs.length + 1 :=
  (insert_perm key a xs).length_eq

/-- Elements in front of which a new one does not go stay where they are. -/
lemma take_prefix_insert {n : ℕ} (h : ∀ x ∈ xs.take n, key a ≤ key x) :
    xs.take n <+: insert key a xs := by
  refine List.IsPrefix.trans ?_ (List.prefix_append _ _)
  induction xs using List.reverseRecOn with
  | nil => simp
  | append_singleton xs x ih =>
    by_cases hx : key x < key a
    · have hn : n ≤ xs.length := by
        by_contra hlt
        have hmem : x ∈ (xs ++ [x]).take n := by
          rw [List.take_of_length_le (by simp; omega)]
          simp
        exact (h x hmem).not_gt hx
      rw [List.take_append_of_le_length hn] at h ⊢
      rw [List.rdropWhile_concat, if_pos (decide_eq_true hx)]
      exact ih h
    · rw [List.rdropWhile_concat, if_neg (by simpa using hx)]
      exact List.take_prefix _ _

/-- A list shows which element was inserted. -/
lemma insert_injective {a b : α} (h : insert key a xs = insert key b xs) : a = b := by
  have hperm : (a :: xs).Perm (b :: xs) := by
    refine (insert_perm key a xs).symm.trans ?_
    rw [h]
    exact insert_perm key b xs
  have hcons : a ::ₘ (xs : Multiset α) = b ::ₘ xs := Multiset.coe_eq_coe.mpr hperm
  exact (Multiset.cons_inj_left _).mp hcons

/-- In a sorted list the elements that the search passes are exactly those of smaller key. -/
lemma search_eq_filter (h : xs.Pairwise fun a b => key b ≤ key a) (a : α) :
    xs.rdropWhile (fun x => key x < key a) = xs.filter (fun x => key a ≤ key x) ∧
      xs.rtakeWhile (fun x => key x < key a) = xs.filter (fun x => key x < key a) := by
  induction xs using List.reverseRecOn with
  | nil => simp
  | append_singleton xs x ih =>
    obtain ⟨hxs, -, hx⟩ := List.pairwise_append.mp h
    by_cases hlt : key x < key a
    · obtain ⟨hdrop, htake⟩ := ih hxs
      simp [hlt, hdrop, htake, hlt.not_ge]
    · have hle : ∀ y ∈ xs ++ [x], key a ≤ key y := by
        intro y hy
        rcases List.mem_append.mp hy with hy | hy
        · exact (not_lt.mp hlt).trans (hx y hy x (by simp))
        · rw [List.mem_singleton.mp hy]
          exact not_lt.mp hlt
      have hall : (xs ++ [x]).filter (fun y => key a ≤ key y) = xs ++ [x] :=
        List.filter_eq_self.mpr fun y hy => decide_eq_true (hle y hy)
      have hnone : (xs ++ [x]).filter (fun y => key y < key a) = [] :=
        List.filter_eq_nil_iff.mpr fun y hy => by simpa using hle y hy
      rw [hall, hnone]
      simp [hlt]

lemma insert_eq_filter (h : xs.Pairwise fun a b => key b ≤ key a) :
    insert key a xs =
      xs.filter (fun x => key a ≤ key x) ++ a :: xs.filter (fun x => key x < key a) := by
  obtain ⟨hdrop, htake⟩ := search_eq_filter h a
  rw [insert, hdrop, htake]

/-- A new element moves those of smaller key up by one, and no others. -/
lemma getElem?_insert (h : xs.Pairwise fun a b => key b ≤ key a) {q : ℕ} (hx : xs[q]? = some x)
    (a : α) : (insert key a xs)[q + if key x < key a then 1 else 0]? = some x := by
  obtain ⟨hdrop, htake⟩ := search_eq_filter h a
  have hsplit := List.rdropWhile_append_rtakeWhile (l := xs) (p := fun x => key x < key a)
  rw [hdrop, htake] at hsplit
  rw [insert_eq_filter h]
  rw [← hsplit] at hx
  by_cases hq : q < (xs.filter fun x => key a ≤ key x).length
  · rw [List.getElem?_append_left hq] at hx
    have hmem := List.mem_filter.mp (List.mem_of_getElem? hx)
    have hle : key a ≤ key x := by simpa using hmem.2
    rw [if_neg hle.not_gt, Nat.add_zero, List.getElem?_append_left hq]
    exact hx
  · rw [not_lt] at hq
    rw [List.getElem?_append_right hq] at hx
    have hmem := List.mem_filter.mp (List.mem_of_getElem? hx)
    have hlt : key x < key a := by simpa using hmem.2
    rw [if_pos hlt, List.getElem?_append_right (by omega), Nat.sub_add_comm hq,
      List.getElem?_cons_succ]
    exact hx

/-! ### The sorted list against the arrival order -/

namespace StableSort

lemma nil : StableSort key ([] : List α) [] := ⟨List.Pairwise.nil, fun _ => rfl⟩

/-- An element that arrives last is inserted from the back. -/
lemma insert (h : StableSort key arrived xs) (a : α) :
    StableSort key (arrived ++ [a]) (StableQueue.insert key a xs) := by
  constructor
  · rw [insert_eq_filter h.sorted]
    refine List.pairwise_append.mpr ⟨h.sorted.filter _, ?_, ?_⟩
    · refine List.pairwise_cons.mpr ⟨?_, h.sorted.filter _⟩
      intro y hy
      have : key y < key a := by simpa using (List.mem_filter.mp hy).2
      exact this.le
    · intro y hy z hz
      have hya : key a ≤ key y := by simpa using (List.mem_filter.mp hy).2
      rcases List.mem_cons.mp hz with rfl | hz
      · exact hya
      · have : key z < key a := by simpa using (List.mem_filter.mp hz).2
        exact this.le.trans hya
  · intro p
    rw [insert_eq_filter h.sorted, List.filter_append, List.filter_append, ← h.stable p,
      List.filter_cons, List.filter_filter, List.filter_filter]
    rcases lt_trichotomy (key a) p with hp | rfl | hp
    · -- a larger key: all of its elements stand before `a`
      have hge : ∀ x, (decide (key x = p) && decide (key a ≤ key x)) = decide (key x = p) := by
        intro x
        by_cases hx : key x = p <;> simp [hx, hp.le]
      have hlt : ∀ x, (decide (key x = p) && decide (key x < key a)) = false := by
        intro x
        by_cases hx : key x = p <;> simp [hx, hp.le]
      simp [hge, hlt, hp.ne]
    · -- the key of `a`: its elements stand before `a`, as they arrived before it
      have hge : ∀ x, (decide (key x = key a) && decide (key a ≤ key x))
          = decide (key x = key a) := by
        intro x
        by_cases hx : key x = key a <;> simp [hx]
      have hlt : ∀ x, (decide (key x = key a) && decide (key x < key a)) = false := by
        intro x
        by_cases hx : key x = key a <;> simp [hx]
      simp [hge, hlt]
    · -- a smaller key: all of its elements stand behind `a`
      have hge : ∀ x, (decide (key x = p) && decide (key a ≤ key x)) = false := by
        intro x
        by_cases hx : key x = p <;> simp [hx, hp]
      have hlt : ∀ x, (decide (key x = p) && decide (key x < key a)) = decide (key x = p) := by
        intro x
        by_cases hx : key x = p <;> simp [hx, hp]
      simp [hge, hlt, hp.ne']

lemma mem_iff (h : StableSort key arrived xs) : x ∈ xs ↔ x ∈ arrived := by
  have hx : x ∈ xs.filter (fun y => key y = key x) ↔ x ∈ arrived.filter (fun y => key y = key x) := by
    rw [h.stable]
  simpa using hx

/-- No element is lost or duplicated. -/
lemma perm (h : StableSort key arrived xs) : xs.Perm arrived := by
  classical
  rw [List.perm_iff_count]
  intro x
  have hx := congrArg (List.count x) (h.stable (key x))
  rwa [List.count_filter (by simp), List.count_filter (by simp)] at hx

/-- The head of the sorted list is the earliest of the elements of highest key. -/
lemma best_of_cons (h : StableSort key arrived (x :: xs)) :
    ∃ rest, best key arrived = some (x, rest) ∧ StableSort key rest xs := by
  obtain ⟨hx, hxs⟩ := List.pairwise_cons.mp h.sorted
  have hle : ∀ y ∈ arrived, key y ≤ key x := by
    intro y hy
    rcases List.mem_cons.mp (h.mem_iff.mpr hy) with rfl | hy
    · exact le_refl _
    · exact hx y hy
  -- split the arrivals at the first element with the key of `x`
  have hfirst : arrived.filter (fun y => key y = key x)
      = x :: xs.filter (fun y => key y = key x) := by
    rw [← h.stable]; simp
  obtain ⟨ys, zs, rfl, hys, -, hzs⟩ := List.filter_eq_cons_iff.mp hfirst
  have hlt : ∀ y ∈ ys, key y < key x := by
    intro y hy
    apply lt_of_le_of_ne
    · exact hle y (by simp [hy])
    · simpa using hys y hy
  refine ⟨ys ++ zs, best_eq_some_iff.mpr ⟨ys, zs, rfl, rfl, hlt, fun z hz => hle z (by simp [hz])⟩,
    hxs, ?_⟩
  intro p
  have hp := h.stable p
  by_cases hxp : key x = p
  · subst hxp
    have hnone : ys.filter (fun y => key y = key x) = [] := by
      simpa using fun y hy => (hlt y hy).ne
    rw [List.filter_append, hnone, List.nil_append, hzs]
  · simpa [List.filter_append, hxp] using hp

lemma best_of_nil (h : StableSort key arrived []) : arrived = [] := by
  simpa using h.perm.symm

end StableSort

end StableQueue
