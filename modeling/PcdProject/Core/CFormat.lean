import Mathlib.Algebra.Order.BigOperators.Group.List
import Mathlib.Algebra.Order.Ring.Nat

/-!
# Formats of C

What `snprintf` prints for a format whose conversions are `%s`, `%d` and `%.nf`, with the texts of
the arguments given. A format is parsed into items first, so that it can be looked at without its
arguments.
-/

namespace CFormat

/-- A byte that is printed as it is, or a conversion with the number of its argument. -/
inductive Item where
  | char (c : UInt8)
  | conversion (i : ℕ)
  deriving DecidableEq

/-- The items of a format; its first conversion takes the argument with number `i`. -/
def parse : ℕ → List UInt8 → List Item
  | _, []                           => []
  | i, 37 :: 115 :: rest            => .conversion i :: parse (i + 1) rest
  | i, 37 :: 100 :: rest            => .conversion i :: parse (i + 1) rest
  | i, 37 :: 46 :: _ :: 102 :: rest => .conversion i :: parse (i + 1) rest
  | i, c :: rest                    => .char c :: parse i rest

/-- The text of an item. -/
def Item.text (args : List (List UInt8)) : Item → List UInt8
  | .char c       => [c]
  | .conversion i => args.getD i []

/-- The item takes none but the first `n` arguments. -/
def Item.Below (n : ℕ) : Item → Prop
  | .char _       => True
  | .conversion i => i < n

instance (n : ℕ) : DecidablePred (Item.Below n)
  | .char _       => .isTrue trivial
  | .conversion i => inferInstanceAs (Decidable (i < n))

/-- The whole text, for a buffer that is large enough. -/
def sprintf (format : List UInt8) (args : List (List UInt8)) : List UInt8 :=
  (parse 0 format).flatMap (Item.text args)

/-- The text that a buffer of `size` bytes has room for, without the terminator. -/
def snprintfText (size : ℕ) (format : List UInt8) (args : List (List UInt8)) : List UInt8 :=
  (sprintf format args).take (size - 1)

/-! ### What fits -/

section Fits

variable {format : List UInt8} {args : List (List UInt8)} {bounds : List ℕ} {size : ℕ}

/-- A string of at most `n` bytes. -/
def FitsIn (arg : List UInt8) (n : ℕ) : Prop := arg.length ≤ n ∧ 0 ∉ arg

/-- The length of an item whose arguments have at most the given lengths. -/
def Item.maxLength (bounds : List ℕ) : Item → ℕ
  | .char _       => 1
  | .conversion i => bounds.getD i 0

/-- The length of a text whose arguments have at most the given lengths. -/
def maxLength (format : List UInt8) (bounds : List ℕ) : ℕ :=
  ((parse 0 format).map (Item.maxLength bounds)).sum

lemma mem_of_mem_parse {c : UInt8} : ∀ {i : ℕ} {format : List UInt8},
    .char c ∈ parse i format → c ∈ format := by
  intro i format
  fun_induction parse i format with
  | case1 => simp
  | case2 i rest ih | case3 i rest ih | case4 i n rest ih =>
    intro h
    have hrest := ih (by simpa using h)
    simp [hrest]
  | case5 i d rest _ _ _ ih =>
    intro h
    rcases List.mem_cons.mp h with h | h
    · cases h
      exact List.mem_cons_self
    · exact List.mem_cons_of_mem d (ih h)

lemma fitsIn_getD (hargs : List.Forall₂ FitsIn args bounds) (i : ℕ) :
    FitsIn (args.getD i []) (bounds.getD i 0) := by
  induction hargs generalizing i with
  | nil => exact ⟨le_rfl, List.not_mem_nil⟩
  | cons harg _ ih =>
    cases i with
    | zero => exact harg
    | succ i => exact ih i

/-- A format without a zero, with strings for its arguments, prints a string of bounded length. -/
lemma fitsIn_sprintf (hformat : 0 ∉ format) (hargs : List.Forall₂ FitsIn args bounds) :
    FitsIn (sprintf format args) (maxLength format bounds) := by
  constructor
  · rw [sprintf, maxLength, List.length_flatMap]
    apply List.sum_le_sum
    intro item _
    cases item with
    | char c => exact le_rfl
    | conversion i => exact (fitsIn_getD hargs i).1
  · intro hzero
    obtain ⟨item, hitem, hzero⟩ := List.mem_flatMap.mp hzero
    cases item with
    | char c =>
      obtain rfl : 0 = c := List.mem_singleton.mp hzero
      exact hformat (mem_of_mem_parse hitem)
    | conversion i => exact (fitsIn_getD hargs i).2 hzero

/-- Nothing is cut off if the longest text fits in front of the terminator. -/
lemma snprintfText_eq_sprintf (hformat : 0 ∉ format) (hargs : List.Forall₂ FitsIn args bounds)
    (hsize : maxLength format bounds < size) :
    snprintfText size format args = sprintf format args := by
  have hlength := (fitsIn_sprintf hformat hargs).1
  exact List.take_of_length_le (by omega)

end Fits

end CFormat
