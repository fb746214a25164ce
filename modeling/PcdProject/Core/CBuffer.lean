import Mathlib.Data.List.TakeWhile
import Mathlib.Tactic.Common

/-!
# Strings in character arrays

A `char` array of `n` bytes holds the string in front of its first zero. `strncpy` fills the rest
of its range with zeros and does not terminate a string that is too long; `copyTruncated` is the
usual remedy, a terminator in the last byte. `snprintf` cuts a text off where the array ends, and
`strcat` runs past the array if the longer string does not fit.
-/

namespace CBuffer

variable {n : ℕ}

/-- The string in front of the first zero. -/
def string (buffer : Vector UInt8 n) : List UInt8 := buffer.toList.takeWhile (· ≠ 0)

/-- Copy at most `len` bytes of the string `s`, the rest of the `len` bytes being zero. -/
def strncpy (buffer : Vector UInt8 n) (s : List UInt8) (len : ℕ) : Vector UInt8 n :=
  Vector.ofFn fun i => if i.val < len then s.getD i 0 else buffer[i]

/-- `strncpy` into all but the last byte, and a zero there. -/
def copyTruncated (buffer : Vector UInt8 n) (s : List UInt8) (hn : 0 < n) : Vector UInt8 n :=
  (strncpy buffer s (n - 1)).set (n - 1) 0

/-- Store the bytes from index `offset` on. -/
def writeAt (buffer : Vector UInt8 n) (offset : ℕ) (bs : List UInt8) : Vector UInt8 n :=
  Vector.ofFn fun i => if i.val < offset then buffer[i] else bs.getD (i - offset) buffer[i]

/-- `snprintf(buffer + offset, n - offset, ...)` of a text; `none` if the difference wraps
around. -/
def snprintf (buffer : Vector UInt8 n) (offset : ℕ) (text : List UInt8) :
    Option (Vector UInt8 n) :=
  if n < offset then none
  else if n = offset then some buffer
  else some (writeAt buffer offset (text.take (n - offset - 1) ++ [0]))

/-- `strcat`; `none` if it stores outside of the array. -/
def strcat (buffer : Vector UInt8 n) (s : List UInt8) : Option (Vector UInt8 n) :=
  if (string buffer).length + s.length < n then
    some (writeAt buffer (string buffer).length (s ++ [0]))
  else none

variable {s : List UInt8} {buffer : Vector UInt8 n}

lemma zero_notMem_string (buffer : Vector UInt8 n) : 0 ∉ string buffer := by
  intro h
  simpa using List.mem_takeWhile_imp h

lemma takeWhile_eq_self_iff : s.takeWhile (· ≠ 0) = s ↔ 0 ∉ s := by
  rw [List.takeWhile_eq_self_iff]
  constructor
  · intro hall hmem
    exact of_decide_eq_true (hall 0 hmem) rfl
  · intro hmem b hb
    exact decide_eq_true fun hzero => hmem (hzero ▸ hb)

lemma takeWhile_eq {l : List UInt8} (hs : 0 ∉ s) (hcopy : ∀ k < s.length, l[k]? = s[k]?)
    (hzero : l[s.length]? = some 0) : l.takeWhile (· ≠ 0) = s := by
  induction s generalizing l with
  | nil =>
    cases l with
    | nil => rfl
    | cons b l =>
      have hb : b = 0 := by simpa using hzero
      simp [hb]
  | cons c s ih =>
    cases l with
    | nil => simp at hzero
    | cons b l =>
      have hb : b = c := by simpa using hcopy 0 (by simp)
      have hc : c ≠ 0 := fun hc => hs (by simp [hc])
      have htail : l.takeWhile (· ≠ 0) = s := by
        apply ih (fun h => hs (by simp [h]))
        · intro k hk
          simpa using hcopy (k + 1) (by simpa using hk)
        · simpa using hzero
      rw [List.takeWhile_cons, if_pos (by simp [hb, hc]), htail, hb]

/-- A string that fits is held after `strncpy`. -/
lemma string_strncpy {len : ℕ} (hs : 0 ∉ s) (hlen : len ≤ n) (hfit : s.length < len) :
    string (strncpy buffer s len) = s := by
  apply takeWhile_eq hs
  · intro k hk
    simp [strncpy, hk.trans hfit, (hk.trans hfit).trans_le hlen, List.getElem?_eq_getElem hk]
  · simp [strncpy, hfit, hfit.trans_le hlen]

/-- The string that is held after `copyTruncated`. -/
lemma string_copyTruncated (hs : 0 ∉ s) (hn : 0 < n) :
    string (copyTruncated buffer s hn) = s.take (n - 1) := by
  have hcopied : ∀ k < n - 1, (copyTruncated buffer s hn).toList[k]? = some (s.getD k 0) := by
    intro k hk
    have hk' : k < n := by omega
    simp [copyTruncated, strncpy, hk, hk', hk.ne']
  have hlen : (s.take (n - 1)).length = min (n - 1) s.length := List.length_take
  apply takeWhile_eq (fun h => hs (List.mem_of_mem_take h))
  · intro k hk
    have hk' : k < s.length := by omega
    rw [hcopied k (by omega), List.getElem?_take_of_lt (by omega), List.getElem?_eq_getElem hk']
    simp [List.getD_eq_getElem?_getD, hk']
  · rcases Nat.lt_or_ge s.length (n - 1) with hlt | hge
    · have hend : (s.take (n - 1)).length = s.length := by omega
      rw [hend, hcopied _ hlt]
      simp
    · have hend : (s.take (n - 1)).length = n - 1 := by omega
      rw [hend]
      simp [copyTruncated]

/-! ### Texts behind a string -/

section WriteAt

variable {pre bs : List UInt8}

lemma toList_writeAt {offset : ℕ} (h : offset + bs.length ≤ n) :
    (writeAt buffer offset bs).toList
      = buffer.toList.take offset ++ bs ++ buffer.toList.drop (offset + bs.length) := by
  apply List.ext_getElem
  · simp
    omega
  · intro k hk hk'
    have hkn : k < n := by simpa using hk
    simp only [writeAt, Vector.getElem_toList, Vector.getElem_ofFn]
    split_ifs with hlt
    · rw [List.getElem_append_left (by simp; omega), List.getElem_append_left (by simp; omega)]
      simp
    · by_cases hbs : k - offset < bs.length
      · rw [List.getElem_append_left (by simp; omega), List.getElem_append_right (by simp; omega)]
        simp [hbs, show min offset n = offset by omega]
      · rw [List.getElem_append_right (by simp; omega)]
        have hback : offset + bs.length + (k - (min offset n + bs.length)) = k := by omega
        simp [hbs, hback]

/-- The string ends with the zero that is stored behind it. -/
lemma string_of_prefix (h : s ++ [0] <+: buffer.toList) (hs : 0 ∉ s) : string buffer = s := by
  obtain ⟨rest, h⟩ := h
  rw [string, ← h, List.append_assoc, List.takeWhile_append_of_pos]
  · simp
  · intro b hb
    have hne : b ≠ 0 := fun hzero => hs (hzero ▸ hb)
    simpa using hne

/-- A text that is cut off where the array ends, behind the bytes `pre`. -/
lemma snprintf_eq (hpre : pre <+: buffer.toList) (hroom : pre.length < n) (text : List UInt8) :
    ∃ buffer', snprintf buffer pre.length text = some buffer' ∧
      (pre ++ text).take (n - 1) ++ [0] <+: buffer'.toList := by
  have htake : (pre ++ text).take (n - 1) = pre ++ text.take (n - pre.length - 1) := by
    rw [List.take_append, List.take_of_length_le (by omega)]
    congr 2
    omega
  refine ⟨writeAt buffer pre.length (text.take (n - pre.length - 1) ++ [0]), ?_, ?_⟩
  · rw [snprintf, if_neg (by omega), if_neg (by omega)]
  · rw [toList_writeAt (by simp; omega), ← List.prefix_iff_eq_take.mp hpre, htake,
      List.append_assoc pre]
    exact List.prefix_append _ _

/-- A string that is written at the start, with its terminator. -/
lemma string_writeAt (hbs : bs.length ≤ n) (hzero : 0 ∈ bs) :
    string (writeAt buffer 0 bs) = bs.takeWhile (· ≠ 0) := by
  have hlen : 0 + bs.length ≤ n := by omega
  have hcut : (bs.takeWhile (· ≠ 0)).length ≠ bs.length := by
    intro heq
    have hall : bs.takeWhile (· ≠ 0) = bs := (List.takeWhile_prefix _).eq_of_length heq
    exact takeWhile_eq_self_iff.mp hall hzero
  rw [string, toList_writeAt hlen, List.take_zero, List.nil_append, List.takeWhile_append,
    if_neg hcut]

lemma strcat_eq (hs : 0 ∉ s) (hfit : (string buffer).length + s.length < n) :
    ∃ buffer', strcat buffer s = some buffer' ∧ string buffer' = string buffer ++ s := by
  refine ⟨_, if_pos hfit, ?_⟩
  have hpre : string buffer <+: buffer.toList := List.takeWhile_prefix _
  have hbytes : (string buffer).length + (s ++ [0]).length ≤ n := by
    rw [List.length_append, List.length_singleton]
    omega
  apply string_of_prefix
  · rw [toList_writeAt hbytes, ← List.prefix_iff_eq_take.mp hpre, ← List.append_assoc]
    exact List.prefix_append _ _
  · rw [List.mem_append]
    rintro (hzero | hzero)
    · exact zero_notMem_string buffer hzero
    · exact hs hzero

end WriteAt

end CBuffer
