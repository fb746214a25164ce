import Mathlib.Algebra.Order.Floor.Ring
import Mathlib.Data.Int.Log
import Mathlib.Data.Rat.Floor
import Mathlib.Tactic.FieldSimp
import Mathlib.Tactic.Linarith
import Mathlib.Tactic.Positivity

/-!
# Binary floating point numbers

`round p x` is the positive number `x` rounded to `p` significant binary digits, to the nearest and
on a tie to the even one. Exponents are not bounded: there is neither overflow nor underflow.
-/

namespace BinaryFloat

/-- The nearest integer, the even one of two. -/
def roundEven (x : ℚ) : ℤ :=
  if 1 / 2 < Int.fract x ∨ Int.fract x = 1 / 2 ∧ ⌊x⌋ % 2 = 1 then ⌊x⌋ + 1 else ⌊x⌋

/-- The distance of the numbers of `p` digits around `x`. -/
def ulp (p : ℕ) (x : ℚ) : ℚ := 2 ^ (Int.log 2 x + 1 - p)

def round (p : ℕ) (x : ℚ) : ℚ := roundEven (x / ulp p x) * ulp p x

variable {p : ℕ} {x y : ℚ}

/-! ### Integers -/

lemma floor_le_roundEven (x : ℚ) : ⌊x⌋ ≤ roundEven x := by
  unfold roundEven
  split_ifs <;> omega

lemma roundEven_le (x : ℚ) : roundEven x ≤ ⌊x⌋ + 1 := by
  unfold roundEven
  split_ifs <;> omega

lemma roundEven_intCast (n : ℤ) : roundEven n = n := by
  rw [roundEven, Int.fract_intCast, Int.floor_intCast, if_neg (by norm_num)]

lemma roundEven_mono (hxy : x ≤ y) : roundEven x ≤ roundEven y := by
  rcases Int.lt_or_eq_of_le (Int.floor_le_floor hxy) with hlt | heq
  · have hx := roundEven_le x
    have hy := floor_le_roundEven y
    omega
  · -- within one interval the larger number is rounded up whenever the smaller one is
    have hfract : Int.fract x ≤ Int.fract y := by
      rw [Int.fract, Int.fract, heq]
      exact sub_le_sub_right hxy _
    rw [roundEven, roundEven, heq]
    split_ifs with hx hy hy
    · exact le_rfl
    · exfalso
      refine hy ?_
      rcases hx with hx | ⟨hx, hodd⟩
      · exact .inl (hx.trans_le hfract)
      · rcases (hx ▸ hfract).lt_or_eq with hlt | heq'
        · exact .inl hlt
        · exact .inr ⟨heq'.symm, hodd⟩
    · omega
    · exact le_rfl

/-! ### Significant digits -/

lemma ulp_pos (p : ℕ) (x : ℚ) : 0 < ulp p x := zpow_pos (by norm_num) _

lemma two_pow_mul_ulp (p : ℕ) (x : ℚ) : 2 ^ p * ulp p x = 2 ^ (Int.log 2 x + 1) := by
  rw [ulp, ← zpow_natCast, ← zpow_add₀ (by norm_num)]
  congr 1
  ring

/-- Rounding does not leave the interval between two powers of two. -/
lemma round_le (p : ℕ) (x : ℚ) : round p x ≤ 2 ^ (Int.log 2 x + 1) := by
  have hlt : x / ulp p x ≤ ((2 ^ p : ℤ) : ℚ) := by
    rw [div_le_iff₀ (ulp_pos p x)]
    push_cast
    rw [two_pow_mul_ulp]
    exact_mod_cast (Int.lt_zpow_succ_log_self (by norm_num) x).le
  have hround := roundEven_mono hlt
  rw [roundEven_intCast] at hround
  rw [← two_pow_mul_ulp p x, round]
  exact mul_le_mul_of_nonneg_right (by exact_mod_cast hround) (ulp_pos p x).le

lemma le_round (hp : 0 < p) (hx : 0 < x) : 2 ^ Int.log 2 x ≤ round p x := by
  obtain ⟨q, rfl⟩ : ∃ q, p = q + 1 := ⟨p - 1, by omega⟩
  have hpow : (2 : ℚ) ^ q * ulp (q + 1) x = 2 ^ Int.log 2 x := by
    rw [ulp, ← zpow_natCast, ← zpow_add₀ (by norm_num)]
    congr 1
    push_cast
    ring
  have hle : ((2 ^ q : ℤ) : ℚ) ≤ x / ulp (q + 1) x := by
    rw [le_div_iff₀ (ulp_pos _ x)]
    push_cast
    rw [hpow]
    exact_mod_cast Int.zpow_log_le_self (by norm_num) hx
  have hround := roundEven_mono hle
  rw [roundEven_intCast] at hround
  rw [← hpow, round]
  exact mul_le_mul_of_nonneg_right (by exact_mod_cast hround) (ulp_pos _ x).le

lemma round_pos (hp : 0 < p) (hx : 0 < x) : 0 < round p x :=
  (zpow_pos (by norm_num) _).trans_le (le_round hp hx)

lemma round_mono (hp : 0 < p) (hx : 0 < x) (hxy : x ≤ y) : round p x ≤ round p y := by
  rcases (Int.log_mono_right hx hxy : Int.log 2 x ≤ Int.log 2 y).lt_or_eq with hlt | heq
  · calc round p x ≤ 2 ^ (Int.log 2 x + 1) := round_le p x
      _ ≤ 2 ^ Int.log 2 y := zpow_le_zpow_right₀ (by norm_num) hlt
      _ ≤ round p y := le_round hp (hx.trans_le hxy)
  · have hulp : ulp p x = ulp p y := by rw [ulp, ulp, heq]
    rw [round, round, hulp]
    refine mul_le_mul_of_nonneg_right ?_ (ulp_pos p y).le
    exact_mod_cast roundEven_mono (div_le_div_of_nonneg_right hxy (ulp_pos p y).le)

end BinaryFloat
