import Inspector.Number.Binary64
import Mathlib.Tactic.Ring

/-!
# Where numbers overflow

A ratio is rounded to a multiple of the gap at its size, and the gap is a power of two. The numbers
from a power of two on begin with an even significand, so what is rounded stays below the power
exactly if it stayed below the midpoint in front of it. So a ratio is finite exactly if it is less
than the midpoint between the greatest finite number and `2¹⁰²⁴`.

    roundDiv num den < m ↔ 2 * num < (2 * m - 1) * den, where m is even        (roundDiv_lt_iff)
    (ofRatio negative num den).isFinite ↔ num < overflow * den               (isFinite_ofRatio_iff)
-/

namespace Inspector.Binary64

/-! ## Quotients -/

theorem le_roundDiv (num den : Nat) : num / den ≤ roundDiv num den := by
  unfold roundDiv
  split_ifs
  · exact Nat.le_refl _
  · exact Nat.le_succ _
  · exact Nat.le_add_right _ _

theorem roundDiv_le (num den : Nat) : roundDiv num den ≤ num / den + 1 := by
  have parity : num / den % 2 ≤ 1 := Nat.le_of_lt_succ (Nat.mod_lt _ Nat.two_pos)
  unfold roundDiv
  split_ifs
  · exact Nat.le_succ _
  · exact Nat.le_refl _
  · exact Nat.add_le_add_left parity _

/-- A tie below an even number goes up to it. -/
theorem roundDiv_lt_iff {num den m : Nat} (hd : 0 < den) (even : m % 2 = 0) (pos : 0 < m) :
    roundDiv num den < m ↔ 2 * num < (2 * m - 1) * den := by
  have rest : num % den < den := Nat.mod_lt _ hd
  have twice : 2 * num = 2 * (num / den) * den + 2 * (num % den) := by
    conv => lhs; rw [← Nat.div_add_mod num den]
    ring
  rw [twice]
  rcases Nat.lt_trichotomy (num / den + 1) m with below | tie | above
  · have fits : 2 * (num / den) + 3 ≤ 2 * m - 1 := by omega
    have := Nat.mul_le_mul_right den fits
    rw [Nat.add_mul] at this
    exact iff_of_true (Nat.lt_of_le_of_lt (roundDiv_le num den) below) (by omega)
  · have last : 2 * m - 1 = 2 * (num / den) + 1 := by omega
    have odd : num / den % 2 = 1 := by omega
    rw [last, Nat.add_mul, roundDiv]
    split_ifs <;> omega
  · have passes : 2 * m - 1 ≤ 2 * (num / den) := by omega
    have := Nat.mul_le_mul_right den passes
    exact iff_of_false (Nat.not_lt.2 (Nat.le_trans (by omega) (le_roundDiv num den))) (by omega)

/-! ## Gaps -/

theorem lt_two_pow_bits (n : Nat) : n < 2 ^ bits n := by
  unfold bits
  split_ifs with zero
  · rw [zero]
    exact Nat.one_pos
  · exact Nat.lt_log2_self

theorem two_pow_le_of_lt_bits {n e : Nat} (h : e < bits n) : 2 ^ e ≤ n := by
  unfold bits at h
  split_ifs at h with zero
  · cases h
  · exact Nat.le_trans (Nat.pow_le_pow_right Nat.two_pos (Nat.le_of_lt_succ h))
      (Nat.log2_self_le zero)

theorem gap_eq (n : Nat) : gap n = 2 ^ (bits n - 53) := rfl

theorem gap_pos (n : Nat) : 0 < gap n := Nat.two_pow_pos _

section

variable (num den : Nat)

/-- The quotient to the nearest multiple of the gap at its size. -/
def rounded : Nat := roundDiv num (den * gap (num / den)) * gap (num / den)

/-- Rounding may reach the next power of two, but does not pass it. -/
theorem rounded_le : rounded num den ≤ 2 ^ bits (num / den) := by
  have power : 2 ^ bits (num / den) =
      2 ^ (bits (num / den) - (bits (num / den) - 53)) * gap (num / den) := by
    rw [gap_eq, ← Nat.pow_add, Nat.sub_add_cancel (Nat.sub_le _ _)]
  have below : num / den / gap (num / den) <
      2 ^ (bits (num / den) - (bits (num / den) - 53)) :=
    Nat.div_lt_of_lt_mul (by rw [Nat.mul_comm, ← power]; exact lt_two_pow_bits _)
  rw [power]
  exact Nat.mul_le_mul_right _
    ((roundDiv_le _ _).trans (by rwa [← Nat.div_div_eq_div_mul]))

variable {num den}

/-- Rounding keeps to the power of two from which on the gap is that wide. -/
theorem le_rounded {e : Nat} (he : 53 ≤ e) (h : e < bits (num / den)) : 2 ^ e ≤ rounded num den := by
  have significand : 2 ^ 52 ≤ num / den / gap (num / den) := by
    rw [Nat.le_div_iff_mul_le (gap_pos _), gap_eq, ← Nat.pow_add]
    exact two_pow_le_of_lt_bits (by omega)
  have next : 2 ^ e ≤ 2 ^ 52 * gap (num / den) := by
    rw [gap_eq, ← Nat.pow_add]
    exact Nat.pow_le_pow_right Nat.two_pos (by omega)
  rw [Nat.div_div_eq_div_mul] at significand
  exact next.trans (Nat.mul_le_mul_right _ (significand.trans (le_roundDiv _ _)))

theorem rounded_lt_iff {e : Nat} (hd : 0 < den) (he : 53 ≤ e) :
    rounded num den < 2 ^ e ↔ 2 * num < (2 ^ 54 - 1) * (den * 2 ^ (e - 53)) := by
  have power : 2 ^ e = 2 ^ 53 * 2 ^ (e - 53) := by rw [← Nat.pow_add, Nat.add_sub_cancel' he]
  rcases Nat.lt_trichotomy (bits (num / den)) e with less | same | greater
  · have small : num / den < 2 ^ (e - 1) :=
      Nat.lt_of_lt_of_le (lt_two_pow_bits _) (Nat.pow_le_pow_right Nat.two_pos (by omega))
    have bound : num < 2 ^ (e - 1) * den := (Nat.div_lt_iff_lt_mul hd).1 small
    have half : 2 ^ e = 2 * 2 ^ (e - 1) := by
      rw [← Nat.pow_succ', Nat.succ_eq_add_one, Nat.sub_add_cancel (by omega)]
    refine iff_of_true
      (Nat.lt_of_le_of_lt (rounded_le num den) (Nat.pow_lt_pow_right (by decide) less)) ?_
    calc 2 * num < 2 * (2 ^ (e - 1) * den) := Nat.mul_lt_mul_of_pos_left bound Nat.two_pos
      _ = 2 ^ 53 * (den * 2 ^ (e - 53)) := by rw [← Nat.mul_assoc, ← half, power]; ring
      _ ≤ (2 ^ 54 - 1) * (den * 2 ^ (e - 53)) := Nat.mul_le_mul_right _ (by decide)
  · have spacing : gap (num / den) = 2 ^ (e - 53) := by rw [gap_eq, same]
    rw [power, ← spacing, rounded, Nat.mul_lt_mul_right (gap_pos _),
      roundDiv_lt_iff (Nat.mul_pos hd (gap_pos _)) (by decide) (by decide)]
    rfl
  · have large : 2 ^ e ≤ num / den := two_pow_le_of_lt_bits greater
    have bound : 2 ^ e * den ≤ num := (Nat.le_div_iff_mul_le hd).1 large
    refine iff_of_false (Nat.not_lt.2 (le_rounded he greater)) (Nat.not_lt.2 ?_)
    calc (2 ^ 54 - 1) * (den * 2 ^ (e - 53)) ≤ 2 ^ 54 * (den * 2 ^ (e - 53)) :=
          Nat.mul_le_mul_right _ (by decide)
      _ = 2 * (2 ^ e * den) := by rw [power]; ring
      _ ≤ 2 * num := Nat.mul_le_mul_left 2 bound

end

/-! ## Ratios -/

theorem unitsPerOne_pos : 0 < unitsPerOne := by
  unfold unitsPerOne
  generalize 1074 = n
  exact Nat.two_pow_pos n

/-- The midpoint between the greatest finite number and `2¹⁰²⁴`, which is `2¹⁰²⁴ - 2⁹⁷⁰`. -/
def overflow : Nat := (2 ^ 54 - 1) * Nat.pow 2 970

theorem isFinite_ofRatio_iff {negative : Bool} {num den : Nat} (hd : 0 < den) :
    (ofRatio negative num den).isFinite ↔ num < overflow * den := by
  have product (a b : Nat) : Nat.pow 2 a * Nat.pow 2 b = 2 ^ (a + b) := (Nat.pow_add 2 a b).symm
  have limit : Nat.pow 2 1024 * unitsPerOne = 2 ^ (1024 + 1074) := by
    rw [unitsPerOne, product]
  have finite : (ofRatio negative num den).isFinite ↔
      rounded (num * unitsPerOne) den < Nat.pow 2 1024 * unitsPerOne := by
    unfold ofRatio
    split_ifs with h
    · exact iff_of_true rfl h
    · exact iff_of_false Bool.false_ne_true h
  have scale : 2 ^ (1024 + 1074 - 53) = 2 * (2 ^ 970 * unitsPerOne) := by
    rw [show 1024 + 1074 - 53 = 1 + (970 + 1074) from rfl, Nat.pow_add, Nat.pow_add, unitsPerOne,
      Nat.pow_eq, Nat.pow_one]
  have regrouped : (2 ^ 54 - 1) * (den * (2 * (2 ^ 970 * unitsPerOne))) =
      2 * (overflow * den * unitsPerOne) := by
    rw [overflow, Nat.pow_eq]
    ring
  rw [finite, limit, rounded_lt_iff hd (by decide), scale, regrouped,
    Nat.mul_lt_mul_left Nat.two_pos, Nat.mul_lt_mul_right unitsPerOne_pos]

end Inspector.Binary64
