import Inspector.Proofs.Number.Rounding
import Mathlib.Algebra.Order.Field.Basic
import Mathlib.Algebra.Order.Field.Rat
import Mathlib.Tactic.FieldSimp
import Mathlib.Tactic.Linarith
import Mathlib.Tactic.LinearCombination

/-!
# The nearest number

A count of units is precise if 53 binary digits write it, with zeros behind them. A ratio is rounded
to the precise count that is nearest to it, and to the even one where two are equally near. There is
one such count only, since between two even ones lies a third, and a ratio that is a precise count
itself is not rounded.

    u ≠ rounded num den → u is farther from num / den, or as far and the rounded one is even
                                                                                   (apart_rounded)
    Rounds (sign negative * (num / den)) negative x ↔ x = ofRatio negative num den    (rounds_iff)
    IsPrecise u → rounded (u * den) den = u                                          (rounded_mul)
-/

namespace Inspector.Binary64

/-! ## Distances -/

/-- How far a quotient is from a whole number, in parts of the divisor. -/
def apart (num den k : Nat) : Nat := ((num : ℤ) - k * den).natAbs

variable {num den : Nat}

theorem abs_sub_eq_apart (hd : 0 < den) (k : Nat) :
    |(num : ℚ) / den - k| = (apart num den k : ℚ) / den := by
  have pos : (0 : ℚ) < den := Nat.cast_pos.2 hd
  have whole : (apart num den k : ℚ) = |(num : ℚ) - den * k| := by
    rw [apart, Nat.cast_natAbs, mul_comm]
    push_cast
    rfl
  rw [whole, div_sub' pos.ne', abs_div, abs_of_pos pos]

/-- A quotient is rounded down or up, to whichever is nearer. -/
theorem roundDiv_cases (num den : Nat) :
    roundDiv num den = num / den ∧
        (2 * (num % den) < den ∨ 2 * (num % den) = den ∧ num / den % 2 = 0) ∨
      roundDiv num den = num / den + 1 ∧
        (den < 2 * (num % den) ∨ 2 * (num % den) = den ∧ num / den % 2 = 1) := by
  unfold roundDiv
  split_ifs <;> omega

/-- Every other whole number is farther off, or just as far, and then the rounded one is even. -/
theorem apart_roundDiv {k : Nat} (hd : 0 < den) (other : k ≠ roundDiv num den) :
    apart num den (roundDiv num den) < apart num den k ∨
      apart num den (roundDiv num den) = apart num den k ∧ roundDiv num den % 2 = 0 := by
  have rest : num % den < den := Nat.mod_lt _ hd
  have parts : num / den * den + num % den = num := Nat.div_add_mod' num den
  have floor : (apart num den (num / den) : ℤ) = num % den := by
    rw [apart]
    omega
  have ceil : (apart num den (num / den + 1) : ℤ) = den - num % den := by
    have next : (num / den + 1) * den = num / den * den + den := Nat.succ_mul _ _
    rw [apart]
    omega
  have near : (apart num den (roundDiv num den) : ℤ) ≤ num % den ∧
      (apart num den (roundDiv num den) : ℤ) ≤ den - num % den := by
    rcases roundDiv_cases num den with ⟨down, _⟩ | ⟨up, _⟩
    · rw [down]
      omega
    · rw [up]
      omega
  rcases Nat.lt_or_ge k (num / den) with below | notBelow
  · have far : (k + 1) * den ≤ num / den * den := Nat.mul_le_mul_right den below
    have : (den + num % den : ℤ) ≤ apart num den k := by
      rw [Nat.succ_mul] at far
      rw [apart]
      omega
    omega
  · rcases Nat.lt_or_ge (num / den + 1) k with above | notAbove
    · have far : (num / den + 1 + 1) * den ≤ k * den := Nat.mul_le_mul_right den above
      have : (2 * den - num % den : ℤ) ≤ apart num den k := by
        rw [Nat.succ_mul, Nat.succ_mul] at far
        rw [apart]
        omega
      omega
    · obtain rfl | rfl : k = num / den ∨ k = num / den + 1 := by omega
      · rcases roundDiv_cases num den with ⟨down, _⟩ | ⟨up, _⟩
        · exact absurd down.symm other
        · rw [up]
          omega
      · rcases roundDiv_cases num den with ⟨down, _⟩ | ⟨up, _⟩
        · rw [down]
          omega
        · exact absurd up.symm other

/-! ## Significands -/

/-- A count of units that 53 binary digits can write, with zeros behind them. -/
def IsPrecise (u : Nat) : Prop := ∃ m e, m < 2 ^ 53 ∧ u = m * 2 ^ e

/-- A count of units with an even significand: the significand takes all of the 53 digits, unless the
number is written without zeros behind it. -/
def IsEven (u : Nat) : Prop :=
  ∃ m e, m < 2 ^ 53 ∧ (2 ^ 52 ≤ m ∨ e = 0) ∧ m % 2 = 0 ∧ u = m * 2 ^ e

theorem isPrecise_mul {m : Nat} (h : m ≤ 2 ^ 53) (e : Nat) : IsPrecise (m * 2 ^ e) := by
  rcases Nat.lt_or_eq_of_le h with less | rfl
  · exact ⟨m, e, less, rfl⟩
  · exact ⟨2 ^ 52, e + 1, by decide, by rw [← Nat.pow_add, ← Nat.pow_add]; congr 1; omega⟩

theorem isEven_mul {m e : Nat} (h : m ≤ 2 ^ 53) (full : 2 ^ 52 ≤ m ∨ e = 0) (even : m % 2 = 0) :
    IsEven (m * 2 ^ e) := by
  rcases Nat.lt_or_eq_of_le h with less | rfl
  · exact ⟨m, e, less, full, even, rfl⟩
  · refine ⟨2 ^ 52, e + 1, by decide, .inl (Nat.le_refl _), by decide, ?_⟩
    rw [← Nat.pow_add, ← Nat.pow_add]
    congr 1
    omega

/-- A precise count between the multiples of a power of two has few digits. -/
theorem IsPrecise.lt_of_not_dvd {u e : Nat} (h : IsPrecise u) (between : ¬ 2 ^ e ∣ u) :
    u < 2 ^ 52 * 2 ^ e := by
  obtain ⟨m, f, small, rfl⟩ := h
  have finer : f < e := by
    rcases Nat.lt_or_ge f e with less | ge
    · exact less
    · exact absurd (Nat.dvd_mul_left_of_dvd (Nat.pow_dvd_pow 2 ge) m) between
  calc m * 2 ^ f < 2 ^ 53 * 2 ^ f := Nat.mul_lt_mul_of_pos_right small (Nat.two_pow_pos f)
    _ = 2 ^ 52 * 2 ^ (f + 1) := by rw [← Nat.pow_add, ← Nat.pow_add]; congr 1; omega
    _ ≤ 2 ^ 52 * 2 ^ e := Nat.mul_le_mul_left _ (Nat.pow_le_pow_right Nat.two_pos finer)

/-! ## Rounding -/

theorem apart_mul (num den g k : Nat) : apart num den (k * g) = apart num (den * g) k := by
  rw [apart, apart, Nat.cast_mul, Nat.cast_mul, Int.mul_assoc, Int.mul_comm (g : ℤ)]

theorem rounded_eq (num den : Nat) : rounded num den =
    roundDiv num (den * gap (num / den)) * 2 ^ (bits (num / den) - 53) := rfl

theorem significand_le (num den : Nat) : roundDiv num (den * gap (num / den)) ≤ 2 ^ 53 := by
  have below : num / den < 2 ^ 53 * gap (num / den) := by
    rw [gap_eq, ← Nat.pow_add]
    exact Nat.lt_of_lt_of_le (lt_two_pow_bits _) (Nat.pow_le_pow_right Nat.two_pos (by omega))
  have floor : num / (den * gap (num / den)) < 2 ^ 53 := by
    rw [← Nat.div_div_eq_div_mul]
    exact Nat.div_lt_of_lt_mul (by rwa [Nat.mul_comm])
  exact (roundDiv_le _ _).trans floor

theorem le_significand (h : 53 < bits (num / den)) :
    2 ^ 52 ≤ roundDiv num (den * gap (num / den)) := by
  have power : 2 ^ (bits (num / den) - 1) = 2 ^ 52 * 2 ^ (bits (num / den) - 53) := by
    rw [← Nat.pow_add]
    congr 1
    omega
  have le : 2 ^ (bits (num / den) - 1) ≤ rounded num den := le_rounded (by omega) (by omega)
  rw [power, rounded_eq] at le
  exact Nat.le_of_mul_le_mul_right le (Nat.two_pow_pos _)

theorem isPrecise_rounded (num den : Nat) : IsPrecise (rounded num den) :=
  isPrecise_mul (significand_le num den) _

theorem isEven_rounded (even : roundDiv num (den * gap (num / den)) % 2 = 0) :
    IsEven (rounded num den) := by
  refine isEven_mul (significand_le num den) ?_ even
  rcases Nat.lt_or_ge 53 (bits (num / den)) with wide | narrow
  · exact .inl (le_significand wide)
  · exact .inr (by omega)

/-- Every other precise count is farther off, or just as far, and then the rounded one is even. The
multiples of the gap are the counts that division chooses from; the others are too small to count. -/
theorem apart_rounded (hd : 0 < den) {u : Nat} (precise : IsPrecise u)
    (other : u ≠ rounded num den) :
    apart num den (rounded num den) < apart num den u ∨
      apart num den (rounded num den) = apart num den u ∧ IsEven (rounded num den) := by
  have pos : 0 < den * gap (num / den) := Nat.mul_pos hd (gap_pos _)
  have scale (k : Nat) : apart num den (k * gap (num / den)) =
      apart num (den * gap (num / den)) k := apart_mul num den _ k
  by_cases multiple : gap (num / den) ∣ u
  · obtain ⟨k, rfl⟩ := multiple
    rw [Nat.mul_comm] at other ⊢
    have differ : k ≠ roundDiv num (den * gap (num / den)) := by
      rintro same
      exact other (by rw [rounded, ← same])
    rw [rounded, scale, scale]
    rcases apart_roundDiv pos differ with nearer | ⟨tie, even⟩
    · exact .inl nearer
    · exact .inr ⟨tie, isEven_rounded even⟩
  · have small : u < 2 ^ 52 * gap (num / den) := precise.lt_of_not_dvd multiple
    have wide : 53 < bits (num / den) := by
      by_contra narrow
      refine multiple ?_
      rw [gap_eq, show bits (num / den) - 53 = 0 by omega]
      exact Nat.one_dvd u
    have least : 2 ^ 52 * gap (num / den) ≤ num / den := by
      rw [gap_eq, ← Nat.pow_add]
      exact two_pow_le_of_lt_bits (by omega)
    have reached : 2 ^ 52 * gap (num / den) * den ≤ num := (Nat.le_div_iff_mul_le hd).1 least
    have passed : (u + 1) * den ≤ 2 ^ 52 * gap (num / den) * den := Nat.mul_le_mul_right den small
    have farther : apart num den (2 ^ 52 * gap (num / den)) < apart num den u := by
      rw [Nat.succ_mul] at passed
      rw [apart, apart]
      generalize 2 ^ 52 * gap (num / den) = least at *
      omega
    refine .inl (Nat.lt_of_le_of_lt ?_ farther)
    by_cases same : 2 ^ 52 = roundDiv num (den * gap (num / den))
    · rw [rounded, ← same]
    · rw [rounded, scale, scale]
      rcases apart_roundDiv pos same with nearer | ⟨tie, -⟩
      · exact Nat.le_of_lt nearer
      · exact Nat.le_of_eq tie

/-! ## Rational numbers -/

def sign (negative : Bool) : ℚ := if negative then -1 else 1

/-- The rational number of this sign and so many units. -/
def rational (negative : Bool) (units : Nat) : ℚ := sign negative * (units / unitsPerOne)

/-- Of all precise counts of units, of either sign, none is nearer to `r`, and if another is as near,
this one is even. -/
structure IsNearest (r : ℚ) (negative : Bool) (units : Nat) : Prop where
  precise : IsPrecise units
  le : ∀ s u, IsPrecise u → |r - rational negative units| ≤ |r - rational s u|
  even : ∀ s u, IsPrecise u → u ≠ units →
    |r - rational s u| = |r - rational negative units| → IsEven units

/-- The number of this sign that is nearest to `r`, an infinity from `2¹⁰²⁴` on. -/
def Rounds (r : ℚ) (negative : Bool) (x : Binary64) : Prop :=
  ∃ units, IsNearest r negative units ∧
    x = if units < Nat.pow 2 1024 * unitsPerOne then .finite negative units else .infinite negative

theorem sign_mul_self (negative : Bool) : sign negative * sign negative = 1 := by
  cases negative <;> simp [sign]

theorem abs_sign (negative : Bool) : |sign negative| = 1 := by
  cases negative <;> simp [sign]

theorem cast_unitsPerOne_pos : (0 : ℚ) < unitsPerOne := Nat.cast_pos.2 unitsPerOne_pos

/-- Distances are taken in units, on the side of the sign. -/
theorem abs_sub_rational (r : ℚ) (negative : Bool) (u : Nat) :
    |r - rational negative u| = |sign negative * r * unitsPerOne - u| / unitsPerOne := by
  have pos := cast_unitsPerOne_pos
  have turned : sign negative * r * unitsPerOne - u =
      sign negative * unitsPerOne * (r - rational negative u) := by
    rw [rational]
    generalize (unitsPerOne : ℚ) = one at *
    field_simp
    linear_combination (u : ℚ) * sign_mul_self negative
  rw [turned, abs_mul, abs_mul, abs_sign, abs_of_pos pos, one_mul, mul_div_cancel_left₀ _ pos.ne']

variable {negative : Bool}

/-- A number of the other sign is no nearer. -/
theorem abs_sub_le_of_sign {q : ℚ} (hq : 0 ≤ q) (s : Bool) (u : Nat) :
    |sign negative * q - rational negative u| ≤ |sign negative * q - rational s u| := by
  have count : (0 : ℚ) ≤ u / unitsPerOne :=
    div_nonneg (Nat.cast_nonneg u) cast_unitsPerOne_pos.le
  have opposite : |q - u / unitsPerOne| ≤ |q + u / unitsPerOne| := by
    rw [abs_of_nonneg (add_nonneg hq count), abs_le]
    constructor <;> linarith
  unfold rational sign
  generalize (u / unitsPerOne : ℚ) = v at *
  cases negative <;> cases s <;> simp only [Bool.false_eq_true, if_true, if_false]
  · exact le_rfl
  · calc |1 * q - 1 * v| = |q - v| := by ring_nf
      _ ≤ |q + v| := opposite
      _ = |1 * q - -1 * v| := by ring_nf
  · calc |-1 * q - -1 * v| = |q - v| := by rw [← abs_neg]; ring_nf
      _ ≤ |q + v| := opposite
      _ = |-1 * q - 1 * v| := by rw [← abs_neg]; ring_nf
  · exact le_rfl

theorem abs_sub_eq_apart_div (hd : 0 < den) (u : Nat) :
    |sign negative * (num / den) - rational negative u| =
      apart (num * unitsPerOne) den u / den / unitsPerOne := by
  have units : sign negative * (sign negative * (num / den)) * unitsPerOne =
      ((num * unitsPerOne : ℕ) : ℚ) / den := by
    rw [← mul_assoc, sign_mul_self, one_mul, Nat.cast_mul, div_mul_eq_mul_div]
  rw [abs_sub_rational, units, abs_sub_eq_apart hd]

theorem abs_sub_le_iff (hd : 0 < den) (u v : Nat) :
    |sign negative * (num / den) - rational negative u| ≤
        |sign negative * (num / den) - rational negative v| ↔
      apart (num * unitsPerOne) den u ≤ apart (num * unitsPerOne) den v := by
  rw [abs_sub_eq_apart_div hd, abs_sub_eq_apart_div hd,
    div_le_div_iff_of_pos_right cast_unitsPerOne_pos,
    div_le_div_iff_of_pos_right (Nat.cast_pos.2 hd), Nat.cast_le]

theorem isNearest_rounded (hd : 0 < den) :
    IsNearest (sign negative * (num / den)) negative (rounded (num * unitsPerOne) den) := by
  have nonneg : (0 : ℚ) ≤ num / den := div_nonneg (Nat.cast_nonneg num) (Nat.cast_nonneg den)
  constructor
  case precise => exact isPrecise_rounded _ _
  case le =>
    intro s u precise
    refine le_trans ?_ (abs_sub_le_of_sign nonneg s u)
    rw [abs_sub_le_iff hd]
    by_cases same : u = rounded (num * unitsPerOne) den
    · rw [same]
    · rcases apart_rounded hd precise same with nearer | ⟨tie, -⟩
      · exact Nat.le_of_lt nearer
      · exact Nat.le_of_eq tie
  case even =>
    intro s u precise other tie
    have reached : |sign negative * (num / den) - rational negative u| ≤
        |sign negative * (num / den) - rational s u| := abs_sub_le_of_sign nonneg s u
    rw [tie, abs_sub_le_iff hd] at reached
    rcases apart_rounded hd precise other with nearer | ⟨-, even⟩
    · exact absurd reached (Nat.not_le.2 nearer)
    · exact even

/-! ## Uniqueness -/

/-- Between an even precise count and another even one above it there is a third. -/
theorem exists_between {u v : Nat} (hu : IsEven u) (hv : IsEven v) (h : u < v) :
    ∃ w, IsPrecise w ∧ u < w ∧ w < v := by
  obtain ⟨m, e, small, full, even, rfl⟩ := hu
  obtain ⟨m', e', small', full', even', rfl⟩ := hv
  refine ⟨(m + 1) * 2 ^ e, isPrecise_mul small e, ?_, ?_⟩
  · exact Nat.mul_lt_mul_of_pos_right (Nat.lt_succ_self m) (Nat.two_pow_pos e)
  · rcases Nat.lt_or_ge e' e with finer | coarser
    · have top : m' * 2 ^ e' < m * 2 ^ e :=
        calc m' * 2 ^ e' < 2 ^ 53 * 2 ^ e' := Nat.mul_lt_mul_of_pos_right small' (Nat.two_pow_pos e')
          _ = 2 ^ 52 * 2 ^ (e' + 1) := by rw [← Nat.pow_add, ← Nat.pow_add]; congr 1; omega
          _ ≤ 2 ^ 52 * 2 ^ e := Nat.mul_le_mul_left _ (Nat.pow_le_pow_right Nat.two_pos finer)
          _ ≤ m * 2 ^ e := Nat.mul_le_mul_right _ (full.resolve_right (by omega))
      exact absurd h (Nat.lt_asymm top)
    · obtain ⟨d, rfl⟩ := Nat.exists_eq_add_of_le coarser
      have regroup : m' * 2 ^ (e + d) = m' * 2 ^ d * 2 ^ e := by rw [Nat.pow_add]; ring
      have even : m' * 2 ^ d % 2 = 0 := by rw [Nat.mul_mod, even', Nat.zero_mul, Nat.zero_mod]
      rw [regroup] at h ⊢
      have above : m < m' * 2 ^ d := Nat.lt_of_mul_lt_mul_right h
      exact Nat.mul_lt_mul_of_pos_right (by omega) (Nat.two_pow_pos e)

theorem IsNearest.not_lt {r : ℚ} {u v : Nat} (hu : IsNearest r negative u)
    (hv : IsNearest r negative v) : ¬ u < v := by
  intro less
  have tie : |r - rational negative u| = |r - rational negative v| :=
    le_antisymm (hu.le _ _ hv.precise) (hv.le _ _ hu.precise)
  obtain ⟨w, precise, low, high⟩ := exists_between (hu.even _ _ hv.precise less.ne' tie.symm)
    (hv.even _ _ hu.precise less.ne tie) less
  have le := hu.le negative w precise
  rw [abs_sub_rational, abs_sub_rational] at tie le
  rw [div_left_inj' cast_unitsPerOne_pos.ne'] at tie
  rw [div_le_div_iff_of_pos_right cast_unitsPerOne_pos] at le
  generalize sign negative * r * unitsPerOne = t at *
  have low : (u : ℚ) < w := Nat.cast_lt.2 low
  have high : (w : ℚ) < v := Nat.cast_lt.2 high
  have middle : t - u = -(t - v) := (abs_eq_abs.1 tie).resolve_left (by intro; linarith)
  have nearer : |t - w| < t - u := abs_lt.2 ⟨by linarith, by linarith⟩
  linarith [le_abs_self (t - u), abs_of_pos (show 0 < t - u by linarith)]

theorem IsNearest.unique {r : ℚ} {u v : Nat} (hu : IsNearest r negative u)
    (hv : IsNearest r negative v) : u = v :=
  Nat.le_antisymm (Nat.not_lt.1 (hv.not_lt hu)) (Nat.not_lt.1 (hu.not_lt hv))

theorem nearestUnits_eq (num den : Nat) :
    nearestUnits num den = rounded (num * unitsPerOne) den := rfl

/-- A ratio is rounded to the nearest number, and to no other. -/
theorem rounds_iff {x : Binary64} (hd : 0 < den) :
    Rounds (sign negative * (num / den)) negative x ↔ x = ofRatio negative num den := by
  unfold ofRatio Rounds
  rw [nearestUnits_eq]
  generalize Nat.pow 2 1024 * unitsPerOne = limit
  constructor
  · rintro ⟨units, nearest, rfl⟩
    rw [nearest.unique (isNearest_rounded hd)]
  · rintro rfl
    exact ⟨_, isNearest_rounded hd, rfl⟩

/-! ## Exact ratios -/

/-- A ratio that is a precise count of units is not rounded. -/
theorem rounded_mul {u : Nat} (precise : IsPrecise u) (hd : 0 < den) :
    rounded (u * den) den = u := by
  have exact : apart (u * den) den u = 0 := by
    rw [apart, Nat.cast_mul]
    omega
  by_contra other
  rcases apart_rounded hd precise (Ne.symm other) with nearer | ⟨tie, -⟩
  · omega
  · rw [exact, apart] at tie
    have same : rounded (u * den) den * den = u * den := by
      push_cast at tie
      zify
      omega
    exact other (Nat.eq_of_mul_eq_mul_right hd same)

theorem ofRatio_of_eq_mul {u : Nat} (precise : IsPrecise u) (hd : 0 < den)
    (exact : num * unitsPerOne = u * den) (small : u < Nat.pow 2 1024 * unitsPerOne) :
    ofRatio negative num den = .finite negative u := by
  unfold ofRatio
  rw [nearestUnits_eq, exact, rounded_mul precise hd, if_pos small]

end Inspector.Binary64
