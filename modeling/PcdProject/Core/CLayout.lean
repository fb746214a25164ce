import Mathlib.Algebra.Group.Nat.Defs
import Mathlib.Data.List.GetD
import Mathlib.Order.MinMax
import Mathlib.Tactic.Common

/-!
# C structs in memory

The fields of a struct are laid out in order, each at the next multiple of its alignment, and the
size of the struct is rounded up to its largest alignment. `slice` reads the bytes of a field out
of a buffer, `pack` writes a struct. Integers are little-endian.
-/

namespace CLayout

/-- The size and the alignment of a field. -/
structure Field where
  size : ℕ
  align : ℕ

def u8 : Field := ⟨1, 1⟩
def u16 : Field := ⟨2, 2⟩
def u32 : Field := ⟨4, 4⟩
def u64 : Field := ⟨8, 8⟩
/-- An array of `n` bytes. -/
def bytes (n : ℕ) : Field := ⟨n, 1⟩

/-- The least multiple of `align` that is not below `off`. -/
def alignUp (off align : ℕ) : ℕ := (off + (align - 1)) / align * align

/-- The offsets of the fields when the first of them may start at `off`. -/
def offsetsFrom : ℕ → List Field → List ℕ
  | _, []        => []
  | off, f :: fs => alignUp off f.align :: offsetsFrom (alignUp off f.align + f.size) fs

/-- The end of the last field. -/
def extentFrom : ℕ → List Field → ℕ
  | off, []      => off
  | off, f :: fs => extentFrom (alignUp off f.align + f.size) fs

def sizeof (fs : List Field) : ℕ := alignUp (extentFrom 0 fs) ((fs.map Field.align).foldr max 1)

/-- The bytes of field number `i` of the struct at the start of the buffer. -/
def slice (fs : List Field) (i : ℕ) (buffer : List UInt8) : List UInt8 :=
  (buffer.drop ((offsetsFrom 0 fs).getD i 0)).take ((fs.map Field.size).getD i 0)

/-- Write the values of the fields in order, the bytes between them being `pad`. -/
def packFrom (pad : UInt8) : ℕ → List Field → List (List UInt8) → List UInt8
  | off, f :: fs, v :: vs =>
    List.replicate (alignUp off f.align - off) pad ++ v
      ++ packFrom pad (alignUp off f.align + f.size) fs vs
  | _, _, _ => []

/-- A struct with the given field values, padded to its size. -/
def pack (pad : UInt8) (fs : List Field) (vs : List (List UInt8)) : List UInt8 :=
  packFrom pad 0 fs vs ++ List.replicate (sizeof fs - extentFrom 0 fs) pad

/-! ### Integers -/

/-- The number with the given little-endian bytes. -/
def leNat : List UInt8 → ℕ
  | []      => 0
  | b :: bs => b.toNat + 256 * leNat bs

/-- The `k` low bytes of `n`, little-endian. -/
def leBytes : ℕ → ℕ → List UInt8
  | 0, _     => []
  | k + 1, n => UInt8.ofNat (n % 256) :: leBytes k (n / 256)

/-! ### Every field lies within the struct -/

variable {fs : List Field} {off n i : ℕ} {b b' : List UInt8}

lemma le_alignUp {align : ℕ} (h : 0 < align) : off ≤ alignUp off align := by
  have hdiv := Nat.div_add_mod (off + (align - 1)) align
  have hmod := Nat.mod_lt (off + (align - 1)) h
  rw [Nat.mul_comm] at hdiv
  unfold alignUp
  omega

lemma le_extentFrom (h : ∀ f ∈ fs, 0 < f.align) : off ≤ extentFrom off fs := by
  induction fs generalizing off with
  | nil => exact le_refl _
  | cons f fs ih =>
    have hf : off ≤ alignUp off f.align := le_alignUp (h f (by simp))
    have hfs : alignUp off f.align + f.size ≤ extentFrom (alignUp off f.align + f.size) fs :=
      ih fun g hg => h g (by simp [hg])
    simp only [extentFrom]
    omega

lemma offset_add_size_le_extentFrom (h : ∀ f ∈ fs, 0 < f.align) (hi : i < fs.length) :
    (offsetsFrom off fs).getD i 0 + (fs.map Field.size).getD i 0 ≤ extentFrom off fs := by
  induction fs generalizing off i with
  | nil => simp at hi
  | cons f fs ih =>
    have hfs : ∀ g ∈ fs, 0 < g.align := fun g hg => h g (by simp [hg])
    cases i with
    | zero => exact le_extentFrom hfs
    | succ i => exact ih hfs (by simpa using hi)

lemma extent_le_sizeof (fs : List Field) : extentFrom 0 fs ≤ sizeof fs := by
  apply le_alignUp
  induction fs with
  | nil => simp
  | cons f fs ih => exact lt_max_of_lt_right ih

/-- Two buffers that agree on the bytes of a struct have the same fields. -/
lemma slice_congr (fs : List Field) (h : ∀ f ∈ fs, 0 < f.align) (hn : sizeof fs ≤ n) (hb : b.take n = b'.take n)
    (i : ℕ) : slice fs i b = slice fs i b' := by
  by_cases hi : i < fs.length
  · have hend : (offsetsFrom 0 fs).getD i 0 + (fs.map Field.size).getD i 0 ≤ n :=
      le_trans (offset_add_size_le_extentFrom h hi) (le_trans (extent_le_sizeof fs) hn)
    have cut : ∀ c : List UInt8, slice fs i c = slice fs i (c.take n) := by
      intro c
      simp only [slice, List.drop_take, List.take_take]
      congr 1
      omega
    rw [cut b, cut b', hb]
  · have hsize : (fs.map Field.size).getD i 0 = 0 := by
      rw [List.getD_eq_default]
      simpa using hi
    simp only [slice, hsize, List.take_zero]

lemma length_slice (i : ℕ) (h : (offsetsFrom 0 fs).getD i 0 + (fs.map Field.size).getD i 0 ≤ b.length) :
    (slice fs i b).length = (fs.map Field.size).getD i 0 := by
  simp only [slice, List.length_take, List.length_drop]
  omega

/-! ### Integers are determined by their bytes -/

lemma leNat_lt : leNat b < 256 ^ b.length := by
  induction b with
  | nil => simp [leNat]
  | cons c b ih =>
    have hc : c.toNat < 256 := c.toNat_lt
    simp only [leNat, List.length_cons, Nat.pow_succ]
    omega

lemma leNat_injective (hlen : b.length = b'.length) (h : leNat b = leNat b') : b = b' := by
  induction b generalizing b' with
  | nil => exact (List.length_eq_zero_iff.mp hlen.symm).symm
  | cons c b ih =>
    cases b' with
    | nil => simp at hlen
    | cons c' b' =>
      have hc : c.toNat < 256 := c.toNat_lt
      have hc' : c'.toNat < 256 := c'.toNat_lt
      simp only [leNat] at h
      have hhead : c = c' := UInt8.toNat.inj (by omega)
      rw [hhead, ih (by simpa using hlen) (by omega)]

lemma length_leBytes (k m : ℕ) : (leBytes k m).length = k := by
  induction k generalizing m with
  | zero => rfl
  | succ k ih => simp [leBytes, ih]

lemma leNat_leBytes (k m : ℕ) : leNat (leBytes k m) = m % 256 ^ k := by
  induction k generalizing m with
  | zero => simp [leBytes, leNat, Nat.mod_one]
  | succ k ih =>
    have hbyte : (UInt8.ofNat (m % 256)).toNat = m % 256 := by
      rw [UInt8.toNat_ofNat', Nat.mod_mod]
    rw [leBytes, leNat, ih, hbyte, Nat.pow_succ', Nat.mod_mul]

/-! ### What is written is read back -/

/-- Each value has the size of its field. -/
def Fits (fs : List Field) (vs : List (List UInt8)) : Prop :=
  List.Forall₂ (fun f v => v.length = f.size) fs vs

variable {vs : List (List UInt8)}

lemma length_packFrom (pad : UInt8) (off : ℕ) (h : ∀ f ∈ fs, 0 < f.align) (hfits : Fits fs vs) :
    off + (packFrom pad off fs vs).length = extentFrom off fs := by
  induction hfits generalizing off with
  | nil => rfl
  | @cons f v fs vs hv hfits ih =>
    have hf : off ≤ alignUp off f.align := le_alignUp (h f (by simp))
    have hfs := ih (alignUp off f.align + f.size) fun g hg => h g (by simp [hg])
    simp only [packFrom, extentFrom, List.length_append, List.length_replicate]
    omega

lemma length_pack (pad : UInt8) (h : ∀ f ∈ fs, 0 < f.align) (hfits : Fits fs vs) :
    (pack pad fs vs).length = sizeof fs := by
  have hlen := length_packFrom pad 0 h hfits
  have hsize := extent_le_sizeof fs
  simp only [pack, List.length_append, List.length_replicate]
  omega

lemma le_offset (off : ℕ) (h : ∀ f ∈ fs, 0 < f.align) (hi : i < fs.length) :
    off ≤ (offsetsFrom off fs).getD i 0 := by
  induction fs generalizing off i with
  | nil => simp at hi
  | cons f fs ih =>
    have hf : off ≤ alignUp off f.align := le_alignUp (h f (by simp))
    cases i with
    | zero => exact hf
    | succ i =>
      have hfs := ih (alignUp off f.align + f.size) (fun g hg => h g (by simp [hg]))
        (by simpa using hi)
      simp only [offsetsFrom, List.getD_cons_succ]
      omega

lemma slice_packFrom (pad : UInt8) (off : ℕ) (h : ∀ f ∈ fs, 0 < f.align) (hfits : Fits fs vs) (hi : i < fs.length)
    (rest : List UInt8) :
    ((packFrom pad off fs vs ++ rest).drop ((offsetsFrom off fs).getD i 0 - off)).take
      ((fs.map Field.size).getD i 0) = vs.getD i [] := by
  induction hfits generalizing off i with
  | nil => simp at hi
  | @cons f v fs vs hv hfits ih =>
    have hf : off ≤ alignUp off f.align := le_alignUp (h f (by simp))
    have hfs : ∀ g ∈ fs, 0 < g.align := fun g hg => h g (by simp [hg])
    cases i with
    | zero =>
      simp only [offsetsFrom, List.map_cons, List.getD_cons_zero, packFrom, List.append_assoc]
      rw [List.drop_left' List.length_replicate, List.take_left' hv]
    | succ i =>
      have hi' : i < fs.length := by simpa using hi
      have hoff := le_offset (alignUp off f.align + f.size) hfs hi'
      simp only [offsetsFrom, List.map_cons, List.getD_cons_succ, packFrom]
      rw [← ih (alignUp off f.align + f.size) hfs hi', List.append_assoc]
      congr 1
      -- the bytes of the first field and the gap before it are dropped
      rw [List.drop_append, List.drop_eq_nil_of_le, List.nil_append]
      · congr 1
        simp only [List.length_append, List.length_replicate]
        omega
      · simp only [List.length_append, List.length_replicate]
        omega

/-- Every field of a packed struct is read back, whatever follows the struct. -/
lemma slice_pack (pad : UInt8) (h : ∀ f ∈ fs, 0 < f.align) (hfits : Fits fs vs) (hi : i < fs.length)
    (rest : List UInt8) : slice fs i (pack pad fs vs ++ rest) = vs.getD i [] := by
  rw [slice, pack, List.append_assoc]
  exact slice_packFrom pad 0 h hfits hi _

/-! ### Structs with any padding -/

/-- The bytes `d` are a struct with the given field values. Nothing is said about its padding. -/
structure IsStruct (fs : List Field) (vs : List (List UInt8)) (d : List UInt8) : Prop where
  length_eq : d.length = sizeof fs
  slice_eq  : ∀ i < fs.length, slice fs i d = vs.getD i []

lemma isStruct_pack (pad : UInt8) (h : ∀ f ∈ fs, 0 < f.align) (hfits : Fits fs vs) :
    IsStruct fs vs (pack pad fs vs) where
  length_eq := length_pack pad h hfits
  slice_eq := by
    intro i hi
    have hslice := slice_pack pad h hfits hi []
    rwa [List.append_nil] at hslice

/-- The fields of a struct are read back, whatever follows it. -/
lemma IsStruct.slice_append {d : List UInt8} (hd : IsStruct fs vs d) (h : ∀ f ∈ fs, 0 < f.align)
    (hi : i < fs.length) (rest : List UInt8) : slice fs i (d ++ rest) = vs.getD i [] := by
  have hprefix : (d ++ rest).take (sizeof fs) = d.take (sizeof fs) :=
    List.take_append_of_le_length hd.length_eq.ge
  rw [slice_congr fs h le_rfl hprefix i]
  exact hd.slice_eq i hi

/-- The first byte is the value of a first field of one byte. -/
lemma IsStruct.headD_append {d : List UInt8} {c : UInt8} (hd : IsStruct (u8 :: fs) ([c] :: vs) d)
    (rest : List UInt8) : (d ++ rest).headD 0 = c := by
  have hfirst : d.take 1 = [c] := hd.slice_eq 0 (Nat.zero_lt_succ _)
  cases d with
  | nil => simp at hfirst
  | cons b d => simpa using hfirst

end CLayout
