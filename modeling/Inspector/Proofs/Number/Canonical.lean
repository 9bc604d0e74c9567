import Inspector.Proofs.Number.Spelled
import Inspector.Proofs.Quantity

/-!
# The numeral of a whole number

A whole number has one numeral without a point, without zeros in front of its other digits, and with
a minus sign only where the number is negative. A magnitude read off any numeral that writes a whole
number below `10¹⁵` is spelled by that one, however many zeros it was written with.

    t.all isDigit → t has no zero in front → t = toDigits 10 (the number of t)    (eq_toDigits)
    IsNumeralOf k t ↔ t = a sign if k < 0, and toDigits 10 k.natAbs               (isNumeralOf_iff)
    n.decimal = k → |k| < 10¹⁵ → (IsNumeralOf k t ↔ t = n.value.spelled)  (isNumeralOf_iff_spelled)
-/

namespace Inspector

open Text

/-! ## Digits -/

/-- No zero stands in front of other digits. -/
def LeadsWithNoZero (t : Text) : Prop := ∀ rest, t = '0' :: rest → rest = []

theorem leadsWithNoZero_toDigits (n : Nat) : LeadsWithNoZero (Nat.toDigits 10 n) := by
  induction n using Nat.strongRecOn with
  | _ n ih =>
    intro rest h
    by_cases small : n < 10
    · rw [Nat.toDigits_of_lt_base small] at h
      exact (List.cons.inj h).2.symm
    · have step := Nat.toDigits_of_base_le (b := 10) (by decide) (Nat.le_of_not_lt small)
      have quotient : n / 10 < n := Nat.div_lt_self (by omega) (by decide)
      cases higher : Nat.toDigits 10 (n / 10) with
      | nil => exact absurd higher Nat.toDigits_ne_nil
      | cons c cs =>
        -- The quotient would be zero too, but then `n` is one digit.
        rw [step, higher, List.cons_append] at h
        obtain rfl : c = '0' := (List.cons.inj h).1
        obtain rfl : cs = [] := ih _ quotient _ higher
        have zero : n / 10 = 0 := by
          rw [← Nat.ofDigitChars_ten_toDigits (n := n / 10), higher]
          rfl
        omega

theorem digitChar_of_isDigit {c : Char} (h : c.isDigit) :
    c.toNat - '0'.toNat < 10 ∧ (c.toNat - '0'.toNat).digitChar = c := by
  have bounds : 48 ≤ c.toNat ∧ c.toNat ≤ 57 := by
    simpa [Char.isDigit, UInt32.le_iff_toNat_le] using h
  have each : ∀ d < 10, (Nat.digitChar d).toNat = d + 48 := by decide
  have small : c.toNat - '0'.toNat < 10 := by
    show c.toNat - 48 < 10
    omega
  refine ⟨small, Char.toNat_inj.1 ?_⟩
  rw [each _ small]
  show c.toNat - 48 + 48 = c.toNat
  omega

/-- Digits without a zero in front are the digits of their number; the induction is on their end,
where a digit more is worth ten times the rest and itself. -/
theorem eq_toDigits {t : Text} (digits : t.all Char.isDigit) (nonempty : t ≠ [])
    (lead : LeadsWithNoZero t) : t = Nat.toDigits 10 (Nat.ofDigitChars 10 t 0) := by
  induction t using List.reverseRecOn with
  | nil => exact absurd rfl nonempty
  | append_singleton s c ih =>
    rw [List.all_append, Bool.and_eq_true] at digits
    obtain ⟨small, own⟩ := digitChar_of_isDigit (by simpa using digits.2)
    have value : Nat.ofDigitChars 10 (s ++ [c]) 0 =
        10 * Nat.ofDigitChars 10 s 0 + (c.toNat - '0'.toNat) := by
      rw [Nat.ofDigitChars_append, Nat.ofDigitChars_cons, Nat.ofDigitChars_nil]
    by_cases hs : s = []
    · rw [value, hs, Nat.ofDigitChars_nil, Nat.mul_zero, Nat.zero_add,
        Nat.toDigits_of_lt_base small, own, List.nil_append]
    · have front : LeadsWithNoZero s := by
        intro rest h
        rw [h, List.cons_append] at lead
        exact absurd (lead _ rfl) (by simp)
      have higher := ih digits.1 hs front
      have positive : 0 < Nat.ofDigitChars 10 s 0 := by
        by_contra zero
        rw [Nat.eq_zero_of_not_pos zero, Nat.toDigits_zero] at higher
        rw [higher] at lead
        exact absurd (lead [c] rfl) (by simp)
      rw [value, ← Nat.toDigits_append_toDigits (by decide) positive small, ← higher,
        Nat.toDigits_of_lt_base small, own]

/-! ## Canonical numerals -/

/-- No point, no zero in front, and no sign in front of zero. -/
structure Numeral.IsCanonical (n : Numeral) : Prop where
  digits : n.IsDigits
  noPoint : n.fraction = []
  lead : LeadsWithNoZero n.whole
  noNegativeZero : n.negative → n.coefficient ≠ 0

/-- The text is the canonical numeral that writes a whole number. -/
def IsNumeralOf (k : ℤ) (t : Text) : Prop :=
  ∃ n : Numeral, n.IsCanonical ∧ n.decimal = k ∧ t = n.written false

namespace Numeral

theorem IsCanonical.whole_eq {n : Numeral} (h : n.IsCanonical) :
    n.whole = Nat.toDigits 10 n.coefficient := by
  have some_digit := h.digits.some_digit
  rw [h.noPoint, List.append_nil] at some_digit
  rw [coefficient, h.noPoint, List.append_nil]
  exact eq_toDigits h.digits.whole some_digit h.lead

/-- The canonical numeral with this sign and this absolute value. -/
theorem isCanonical_of_toDigits {negative : Bool} {a : Nat} (sign : negative → a ≠ 0) :
    IsCanonical ⟨negative, Nat.toDigits 10 a, []⟩ ∧
      coefficient ⟨negative, Nat.toDigits 10 a, []⟩ = a := by
  have value : coefficient ⟨negative, Nat.toDigits 10 a, []⟩ = a := by
    rw [coefficient, List.append_nil, Nat.ofDigitChars_ten_toDigits]
  refine ⟨⟨⟨all_isDigit_toDigits a, rfl, ?_⟩, rfl, leadsWithNoZero_toDigits a, ?_⟩, value⟩
  · rw [List.append_nil]
    exact Nat.toDigits_ne_nil
  · rw [value]
    exact sign

end Numeral

theorem signed_natAbs (k : ℤ) : signed (k < 0) k.natAbs = k := by
  by_cases h : k < 0
  · rw [decide_eq_true h, signed_true]
    omega
  · rw [decide_eq_false h, signed_false]
    omega

theorem signed_neg_iff {negative : Bool} {a : Nat} :
    signed negative a < 0 ↔ negative ∧ a ≠ 0 := by
  cases negative with
  | true =>
    rw [signed_true, eq_self, true_and]
    omega
  | false => simp

theorem cast_signed (negative : Bool) (a : Nat) :
    ((signed negative a : ℤ) : ℚ) = Binary64.sign negative * a := by
  cases negative <;> simp [signed, Binary64.sign]

/-- A whole number has one canonical numeral. -/
theorem isNumeralOf_iff {k : ℤ} {t : Text} :
    IsNumeralOf k t ↔ t = Binary64.signText (k < 0) ++ Nat.toDigits 10 k.natAbs := by
  constructor
  · rintro ⟨n, canonical, hk, rfl⟩
    obtain ⟨own, digits⟩ := Numeral.eq_signed_of_decimal hk
    rw [canonical.noPoint, List.length_nil, Nat.pow_zero, Nat.mul_one] at digits
    have sign : n.negative = decide (k < 0) := by
      have below : k < 0 ↔ n.negative ∧ k.natAbs ≠ 0 := by
        conv => lhs; rw [← own]
        exact signed_neg_iff
      rw [Bool.eq_iff_iff, decide_eq_true_iff, below, ← digits]
      exact ⟨fun h => ⟨h, canonical.noNegativeZero h⟩, fun h => h.1⟩
    rw [Numeral.written, canonical.whole_eq, digits, sign, Binary64.signText]
    exact List.append_nil _
  · rintro rfl
    have sign : (decide (k < 0)) → k.natAbs ≠ 0 := by
      intro h
      have := of_decide_eq_true h
      omega
    obtain ⟨canonical, value⟩ := Numeral.isCanonical_of_toDigits sign
    refine ⟨_, canonical, ?_, (List.append_nil _).symm⟩
    rw [Numeral.decimal, value, List.length_nil, pow_zero, div_one, ← cast_signed, signed_natAbs]

/-! ## Numbers read off numerals -/

/-- Equal, but for the sign of zero. -/
inductive Binary64.Same : Binary64 → Binary64 → Prop where
  | refl (x : Binary64) : Same x x
  | zero (s s' : Bool) : Same (.finite s 0) (.finite s' 0)

theorem Binary64.spelled_of_same {x y : Binary64} (h : Same x y) : x.spelled = y.spelled := by
  cases h with
  | refl => rfl
  | zero s s' =>
    have zero (s : Bool) : spelled (.finite s 0) = Nat.toDigits 10 0 := by
      have whole := spelled_whole s (n := 0) (by decide)
      rwa [Nat.zero_mul, bne_self_eq_false, Bool.and_false] at whole
    rw [zero, zero]

namespace Numeral

variable {n n' : Numeral} {k : ℤ}

theorem value_of_whole (h : n.decimal = k) (small : |k| < 10 ^ 15) :
    n.value = .finite n.negative (k.natAbs * Binary64.unitsPerOne) := by
  refine value_of_decimal h (Int.le_of_lt (Int.lt_of_lt_of_le small ?_))
  decide

/-- However it is written, a whole number is spelled by its one canonical numeral. -/
theorem isNumeralOf_iff_spelled (h : n.decimal = k) (small : |k| < 10 ^ 15) (t : Text) :
    IsNumeralOf k t ↔ t = n.value.spelled := by
  have below : k.natAbs < 10 ^ 15 := by
    have := Int.abs_eq_natAbs k
    omega
  have own := (eq_signed_of_decimal h).1
  have sign : (n.negative && k.natAbs != 0) = decide (k < 0) := by
    conv => rhs; rw [← own]
    rw [Bool.eq_iff_iff, decide_eq_true_iff, signed_neg_iff, Bool.and_eq_true, bne_iff_ne]
  rw [isNumeralOf_iff, value_of_whole h small, Binary64.spelled_whole _ below, sign]

/-- Two numerals of one whole number are read as the same, but for the sign of zero. -/
theorem same_of_whole (h : n.decimal = k) (h' : n'.decimal = k) (small : |k| < 10 ^ 15) :
    n.value.Same n'.value := by
  rw [value_of_whole h small, value_of_whole h' small]
  by_cases zero : k.natAbs = 0
  · rw [zero, Nat.zero_mul]
    exact .zero _ _
  · have sign : n.negative = n'.negative := by
      have own := (eq_signed_of_decimal h).1
      have own' := (eq_signed_of_decimal h').1
      have side : n.negative = true ↔ n'.negative = true := by
        have one : signed n.negative k.natAbs < 0 ↔ signed n'.negative k.natAbs < 0 := by
          rw [own, own']
        rw [signed_neg_iff, signed_neg_iff] at one
        simpa [zero] using one
      exact Bool.eq_iff_iff.2 side
    rw [sign]
    exact .refl _

end Numeral

end Inspector
