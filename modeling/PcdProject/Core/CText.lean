import Mathlib.Algebra.Group.Int.Defs
import Mathlib.Algebra.Group.Nat.Defs
import Mathlib.Data.List.DropRight
import Mathlib.Tactic.Common

/-!
# Functions of the C library on strings

A string is the list of the bytes in front of its terminator. `strtok` gives the token and the
string that the next call continues with.
-/

namespace CText

/-- `isspace` in the C locale. -/
def isspace (b : UInt8) : Bool := b = 32 ∨ 9 ≤ b ∧ b ≤ 13

/-- `tolower` in the C locale. -/
def tolower (b : UInt8) : UInt8 := if 65 ≤ b ∧ b ≤ 90 then b + 32 else b

/-- `strcasecmp(s, t) == 0` -/
def strcaseeq (s t : List UInt8) : Bool := s.map tolower = t.map tolower

def strtok (delim : UInt8 → Bool) (s : List UInt8) : Option (List UInt8 × List UInt8) :=
  let start := s.dropWhile delim
  if start = [] then none
  else some (start.takeWhile (! delim ·), (start.dropWhile (! delim ·)).tail)

def isdigit (b : UInt8) : Bool := 48 ≤ b ∧ b ≤ 57

/-- The factor of an optional sign, and the rest of the string. -/
def sign : List UInt8 → ℤ × List UInt8
  | 43 :: s => (1, s)
  | 45 :: s => (-1, s)
  | s       => (1, s)

/-- The number that decimal digits denote. -/
def digitsValue (ds : List UInt8) : ℤ := ds.foldl (fun n d => 10 * n + (d.toNat - 48 : ℤ)) 0

/-- `strtol(s, NULL, 10)`: the number at the start of the string, at the bounds of `long` where it
is none. -/
def strtol (s : List UInt8) : ℤ :=
  let (factor, digits) := sign (s.dropWhile isspace)
  max (-2 ^ 63) (min (2 ^ 63 - 1) (factor * digitsValue (digits.takeWhile isdigit)))

/-- `atoi`, which is `strtol` converted to `int`. -/
def atoi (s : List UInt8) : ℤ := (strtol s).bmod (2 ^ 32)

/-- The number that a string denotes if it is a decimal integer, blanks in front aside. -/
def decimalInteger (s : List UInt8) : Option ℤ :=
  let (factor, digits) := sign (s.dropWhile isspace)
  if digits ≠ [] ∧ digits.all isdigit then some (factor * digitsValue digits) else none

variable {delim : UInt8 → Bool} {s token rest : List UInt8}

/-- `atoi` reads the decimal integers that are in the range of `int`. -/
lemma atoi_of_decimalInteger {n : ℤ} (h : decimalInteger s = some n) (hlow : -2 ^ 31 ≤ n)
    (hhigh : n < 2 ^ 31) : atoi s = n := by
  simp only [decimalInteger] at h
  split_ifs at h with hdigits
  have htake : (sign (s.dropWhile isspace)).2.takeWhile isdigit
      = (sign (s.dropWhile isspace)).2 :=
    List.takeWhile_eq_self_iff.mpr (List.all_eq_true.mp hdigits.2)
  have hstrtol : strtol s = n := by
    simp only [strtol, htake, Option.some.inj h]
    omega
  rw [atoi, hstrtol]
  exact Int.bmod_eq_of_le (by omega) (by omega)

lemma tolower_of_isspace {b : UInt8} (hb : isspace b) : tolower b = b := by
  apply if_neg
  rintro ⟨hlow, -⟩
  rcases of_decide_eq_true hb with rfl | ⟨-, hhigh⟩
  · exact absurd hlow (by decide)
  · have habsurd : (65 : UInt8) ≤ 13 := UInt8.le_trans hlow hhigh
    exact absurd habsurd (by decide)

lemma strtok_eq_none_iff : strtok delim s = none ↔ ∀ b ∈ s, delim b := by
  rw [← List.dropWhile_eq_nil_iff]
  simp only [strtok, ite_eq_left_iff, reduceCtorEq, imp_false, not_not]

lemma token_of_strtok (h : strtok delim s = some (token, rest)) :
    token = (s.dropWhile delim).takeWhile (! delim ·) := by
  simp only [strtok] at h
  split at h
  · cases h
  · exact (congrArg Prod.fst (Option.some.inj h)).symm

/-- `strtok` skips delimiters in front. -/
lemma strtok_append {lead : List UInt8} (hlead : ∀ b ∈ lead, delim b) :
    strtok delim (lead ++ s) = strtok delim s := by
  simp only [strtok, List.dropWhile_append_of_pos hlead]

lemma strtok_of_not {b : UInt8} (hb : ¬ delim b) :
    strtok delim (b :: s) = some ((b :: s).takeWhile (! delim ·),
      ((b :: s).dropWhile (! delim ·)).tail) := by
  simp only [strtok, List.dropWhile_cons_of_neg hb]
  exact if_neg (List.cons_ne_nil b s)

lemma mem_of_mem_token (h : strtok delim s = some (token, rest)) {b : UInt8} (hb : b ∈ token) :
    b ∈ s := by
  rw [token_of_strtok h] at hb
  exact (List.dropWhile_sublist _).subset ((List.takeWhile_prefix _).subset hb)

lemma token_ne_nil (h : strtok delim s = some (token, rest)) : token ≠ [] := by
  have hstart : s.dropWhile delim ≠ [] := by
    intro hnil
    rw [strtok_eq_none_iff.mpr (List.dropWhile_eq_nil_iff.mp hnil)] at h
    cases h
  obtain ⟨b, start, hb⟩ := List.exists_cons_of_ne_nil hstart
  have hdelim := List.head_dropWhile_not delim hstart
  simp only [hb, List.head_cons] at hdelim
  rw [token_of_strtok h, hb, List.takeWhile_cons_of_pos (by simp [hdelim])]
  exact List.cons_ne_nil _ _

/-- What is dropped at the end of `s ++ rest` is dropped from `rest` as long as some of `rest`
stays. -/
lemma rdropWhile_append {p : UInt8 → Bool} (s : List UInt8) (h : rest.rdropWhile p ≠ []) :
    (s ++ rest).rdropWhile p = s ++ rest.rdropWhile p := by
  have hne : (rest.reverse.dropWhile p).isEmpty = false := by
    rw [List.isEmpty_eq_false_iff]
    intro hnil
    exact h (List.reverse_eq_nil_iff.mpr hnil)
  rw [List.rdropWhile, List.reverse_append, List.dropWhile_append, hne, if_neg Bool.false_ne_true,
    List.reverse_append, List.reverse_reverse]
  rfl

/-- A byte that is not dropped stays, with all in front of it. -/
lemma mem_rdropWhile {p : UInt8 → Bool} {b : UInt8} (hb : b ∈ s) (hp : ¬ p b) :
    b ∈ s.rdropWhile p := by
  rw [← List.rdropWhile_append_rtakeWhile (p := p) (l := s), List.mem_append] at hb
  apply hb.resolve_right
  intro hmem
  exact hp (List.mem_rtakeWhile_imp hmem)

end CText
