import PcdProject.Core.CLayout

/-!
# Structs that are filled field by field

A struct in uninitialised memory, and the stores to its fields. The memory shows in the fields to
which nothing is stored, and in the padding.
-/

namespace CLayout

/-- Copy the bytes `v` to field number `i` of the struct at the start of `d`. -/
def store (fs : List Field) (d : List UInt8) (i : ℕ) (v : List UInt8) : List UInt8 :=
  d.take ((offsetsFrom 0 fs).getD i 0) ++ v ++ d.drop ((offsetsFrom 0 fs).getD i 0 + v.length)

/-- The stores in their order, each with the number of its field. -/
def storeAll (fs : List Field) (d : List UInt8) (stores : List (ℕ × List UInt8)) : List UInt8 :=
  stores.foldl (fun d s => store fs d s.1 s.2) d

/-- Every store is to a field of the struct and as long as this field. -/
def StoresFit (fs : List Field) (stores : List (ℕ × List UInt8)) : Prop :=
  ∀ s ∈ stores, s.1 < fs.length ∧ s.2.length = (fs.map Field.size).getD s.1 0

instance (fs : List Field) (stores : List (ℕ × List UInt8)) : Decidable (StoresFit fs stores) :=
  inferInstanceAs (Decidable (∀ s ∈ stores, _))

variable {fs : List Field} {i j off : ℕ} {d v : List UInt8} {stores : List (ℕ × List UInt8)}

/-- A field ends in front of the fields behind it. -/
lemma offset_add_size_le_offset (h : ∀ f ∈ fs, 0 < f.align) (hij : i < j) (hj : j < fs.length) :
    (offsetsFrom off fs).getD i 0 + (fs.map Field.size).getD i 0 ≤ (offsetsFrom off fs).getD j 0 := by
  induction fs generalizing off i j with
  | nil => simp at hj
  | cons f fs ih =>
    have hfs : ∀ g ∈ fs, 0 < g.align := fun g hg => h g (by simp [hg])
    obtain ⟨j, rfl⟩ := Nat.exists_eq_succ_of_ne_zero (Nat.ne_zero_of_lt hij)
    have hj' : j < fs.length := by simpa using hj
    cases i with
    | zero => exact le_offset _ hfs hj'
    | succ i => exact ih hfs (Nat.lt_of_succ_lt_succ hij) hj'

lemma field_le_sizeof (h : ∀ f ∈ fs, 0 < f.align) (hi : i < fs.length) :
    (offsetsFrom 0 fs).getD i 0 + (fs.map Field.size).getD i 0 ≤ sizeof fs :=
  (offset_add_size_le_extentFrom h hi).trans (extent_le_sizeof fs)

lemma length_store (hend : (offsetsFrom 0 fs).getD i 0 + v.length ≤ d.length) :
    (store fs d i v).length = d.length := by
  simp only [store, List.length_append, List.length_take, List.length_drop]
  omega

lemma getElem?_store (hend : (offsetsFrom 0 fs).getD i 0 + v.length ≤ d.length) (m : ℕ) :
    (store fs d i v)[m]? =
      if (offsetsFrom 0 fs).getD i 0 ≤ m ∧ m < (offsetsFrom 0 fs).getD i 0 + v.length then
        v[m - (offsetsFrom 0 fs).getD i 0]?
      else d[m]? := by
  generalize hoff : (offsetsFrom 0 fs).getD i 0 = off at hend ⊢
  have hlen : (d.take off).length = off := List.length_take_of_le (by omega)
  rw [store, hoff, List.append_assoc]
  split_ifs with hin
  · rw [List.getElem?_append_right (by omega), hlen, List.getElem?_append_left (by omega)]
  · rcases Nat.lt_or_ge m off with hm | hm
    · rw [List.getElem?_append_left (by omega), List.getElem?_take_of_lt hm]
    · rw [List.getElem?_append_right (by omega), List.getElem?_append_right (by omega), hlen,
        List.getElem?_drop]
      congr 1
      omega

/-- A store is read back from its field. -/
lemma slice_store_self (hv : v.length = (fs.map Field.size).getD i 0)
    (hend : (offsetsFrom 0 fs).getD i 0 + v.length ≤ d.length) :
    slice fs i (store fs d i v) = v := by
  have hlen : (d.take ((offsetsFrom 0 fs).getD i 0)).length = (offsetsFrom 0 fs).getD i 0 :=
    List.length_take_of_le (by omega)
  rw [slice, store, List.append_assoc, List.drop_left' hlen, List.take_left' hv]

/-- A store leaves the other fields as they are. -/
lemma slice_store_of_ne (h : ∀ f ∈ fs, 0 < f.align) (hi : i < fs.length) (hj : j < fs.length)
    (hij : i ≠ j) (hv : v.length = (fs.map Field.size).getD i 0)
    (hend : (offsetsFrom 0 fs).getD i 0 + v.length ≤ d.length) :
    slice fs j (store fs d i v) = slice fs j d := by
  have hdisjoint : (offsetsFrom 0 fs).getD i 0 + v.length ≤ (offsetsFrom 0 fs).getD j 0 ∨
      (offsetsFrom 0 fs).getD j 0 + (fs.map Field.size).getD j 0 ≤ (offsetsFrom 0 fs).getD i 0 := by
    rcases Nat.lt_or_gt_of_ne hij with hlt | hgt
    · left
      rw [hv]
      exact offset_add_size_le_offset h hlt hj
    · right
      exact offset_add_size_le_offset h hgt hi
  apply List.ext_getElem?
  intro m
  rw [slice, slice, List.getElem?_take, List.getElem?_take]
  split_ifs with hm
  · rw [List.getElem?_drop, List.getElem?_drop, getElem?_store hend, if_neg (by omega)]
  · rfl

lemma StoresFit.tail {s : ℕ × List UInt8} (hfit : StoresFit fs (s :: stores)) :
    StoresFit fs stores :=
  fun t ht => hfit t (List.mem_cons_of_mem _ ht)

/-- The first store is within the struct. -/
lemma StoresFit.end_le {s : ℕ × List UInt8} (hfit : StoresFit fs (s :: stores))
    (h : ∀ f ∈ fs, 0 < f.align) (hd : sizeof fs ≤ d.length) :
    (offsetsFrom 0 fs).getD s.1 0 + s.2.length ≤ d.length := by
  obtain ⟨hi, hv⟩ := hfit s List.mem_cons_self
  rw [hv]
  exact (field_le_sizeof h hi).trans hd

section StoreAll

variable (h : ∀ f ∈ fs, 0 < f.align) (hfit : StoresFit fs stores) (hd : sizeof fs ≤ d.length)
include h hfit hd

lemma length_storeAll : (storeAll fs d stores).length = d.length := by
  induction stores generalizing d with
  | nil => rfl
  | cons s stores ih =>
    have hlen := length_store (hfit.end_le h hd)
    exact (ih hfit.tail (hd.trans_eq hlen.symm)).trans hlen

/-- A field to which nothing is stored shows the memory. -/
lemma slice_storeAll_of_notMem (hj : j < fs.length) (hnot : j ∉ stores.map Prod.fst) :
    slice fs j (storeAll fs d stores) = slice fs j d := by
  induction stores generalizing d with
  | nil => rfl
  | cons s stores ih =>
    obtain ⟨hi, hv⟩ := hfit s List.mem_cons_self
    have hend := hfit.end_le h hd
    rw [List.map_cons, List.mem_cons, not_or] at hnot
    obtain ⟨hne, hnot⟩ := hnot
    refine (ih hfit.tail (hd.trans_eq (length_store hend).symm) hnot).trans ?_
    exact slice_store_of_ne h hi hj (Ne.symm hne) hv hend

/-- A field to which one value is stored shows it, whatever the memory. -/
lemma slice_storeAll_of_mem (hnodup : (stores.map Prod.fst).Nodup) (hmem : (i, v) ∈ stores) :
    slice fs i (storeAll fs d stores) = v := by
  induction stores generalizing d with
  | nil => cases hmem
  | cons s stores ih =>
    obtain ⟨hi, hv⟩ := hfit s List.mem_cons_self
    have hend := hfit.end_le h hd
    have hlen := length_store hend
    rw [List.map_cons, List.nodup_cons] at hnodup
    obtain ⟨hnot, hnodup⟩ := hnodup
    rcases List.mem_cons.mp hmem with rfl | hmem
    · exact (slice_storeAll_of_notMem h hfit.tail (hd.trans_eq hlen.symm) hi hnot).trans
        (slice_store_self hv hend)
    · exact ih hfit.tail (hd.trans_eq hlen.symm) hnodup hmem

end StoreAll

end CLayout
