import Inspector.Number.Shortest
import Inspector.Proofs.Number.Numeral
import Inspector.Proofs.Number.Rounding

/-!
# How numbers are spelled

Every finite number is spelled as a decimal numeral, with digits on both sides of its point if it
has one; the others are spelled with letters. A numeral that is read is finite exactly if it is less
than the midpoint from which on numbers overflow, however many digits it is written with.

    IsNumeral x.spelled ↔ x.isFinite                                        (isNumeral_spelled_iff)
    n.value.isFinite ↔ n.coefficient < overflow * 10 ^ n.fraction.length     (isFinite_value_iff)
-/

namespace Inspector

open Text

/-- A decimal numeral: an optional minus sign, digits, and optionally a point with digits behind
it. -/
def IsNumeral (t : Text) : Prop :=
  ∃ (n : Numeral) (point : Bool), n.IsDigits ∧ n.whole ≠ [] ∧ (point → n.fraction ≠ []) ∧
    t = n.written point

namespace IsNumeral

variable {negative : Bool} {whole fraction : Text}

theorem of_digits (hw : whole.all Char.isDigit) (ne : whole ≠ []) :
    IsNumeral (Binary64.signText negative ++ whole) :=
  ⟨⟨negative, whole, []⟩, false, ⟨hw, rfl, by simpa using ne⟩, ne, nofun,
    (List.append_nil _).symm⟩

theorem of_point (hw : whole.all Char.isDigit) (hf : fraction.all Char.isDigit)
    (nw : whole ≠ []) (nf : fraction ≠ []) :
    IsNumeral (Binary64.signText negative ++ (whole ++ '.' :: fraction)) :=
  ⟨⟨negative, whole, fraction⟩, true, ⟨hw, hf, by simp [nw]⟩, nw, fun _ => nf,
    (List.append_assoc _ _ _).symm⟩

theorem char_of_mem {t : Text} (h : IsNumeral t) {c : Char} (hc : c ∈ t) :
    c = '-' ∨ c = '.' ∨ c.isDigit := by
  obtain ⟨n, point, digits, -, -, rfl⟩ := h
  exact Numeral.mem_written digits hc

end IsNumeral

/-! ## Decimals -/

theorem all_isDigit_toDigits (n : Nat) : (Nat.toDigits 10 n).all Char.isDigit :=
  List.all_eq_true.2 fun _ => Nat.isDigit_of_mem_toDigits (by decide) (by decide)

theorem all_isDigit_zeros (n : Nat) : (List.replicate n '0').all Char.isDigit :=
  List.all_eq_true.2 fun c hc => by rw [List.eq_of_mem_replicate hc]; rfl

theorem Decimal.isNumeral_positional (d : Decimal) (negative : Bool) :
    IsNumeral (Binary64.signText negative ++ d.positional) := by
  have digits : d.digits.all Char.isDigit := all_isDigit_toDigits d.coefficient
  have some_digit : d.digits ≠ [] := Nat.toDigits_ne_nil
  unfold positional
  dsimp only
  split_ifs with upward short
  · refine .of_digits ?_ (by simp [some_digit])
    rw [List.all_append, digits, all_isDigit_zeros]
    rfl
  · rw [List.append_assoc]
    show IsNumeral (_ ++ ("0".toList ++ '.' :: (_ ++ d.digits)))
    refine .of_point (by decide) ?_ (by decide) (by simp [some_digit])
    rw [List.all_append, digits, all_isDigit_zeros]
    rfl
  · generalize hk : d.digits.length - (-d.exponent).toNat = k
    have parts := List.take_append_drop k d.digits
    rw [← parts, List.all_append, Bool.and_eq_true] at digits
    rw [List.append_assoc]
    show IsNumeral (_ ++ (d.digits.take k ++ '.' :: d.digits.drop k))
    refine .of_point digits.1 digits.2 ?_ ?_
    · rw [← List.length_pos_iff, List.length_take]
      omega
    · rw [← List.length_pos_iff, List.length_drop]
      omega

namespace Binary64

theorem isNumeral_text {s : Bool} {u : Nat} : IsNumeral (text (.finite s u)) := by
  unfold text
  dsimp only
  split_ifs
  · exact .of_digits (by decide) (by decide)
  · exact Decimal.isNumeral_positional _ s

/-- How the numbers are spelled that are not finite. -/
def overflowWords : List Text := ["inf", "-inf", "NaN"]

theorem spelled_mem_overflowWords {x : Binary64} (h : x.isFinite = false) :
    x.spelled ∈ overflowWords := by
  cases x with
  | nan => decide
  | infinite s => cases s <;> decide
  | finite s u => cases h

theorem not_isNumeral_of_mem {t : Text} (h : t ∈ overflowWords) : ¬ IsNumeral t := by
  have letter : 'n' ∈ t ∨ 'N' ∈ t := by
    simp only [overflowWords, List.mem_cons, List.not_mem_nil, or_false] at h
    rcases h with rfl | rfl | rfl
    · exact .inl (by decide)
    · exact .inl (by decide)
    · exact .inr (by decide)
  intro numeral
  rcases letter with small | capital
  · exact absurd (numeral.char_of_mem small) (by decide)
  · exact absurd (numeral.char_of_mem capital) (by decide)

theorem isNumeral_spelled_iff (x : Binary64) : IsNumeral x.spelled ↔ x.isFinite := by
  cases x with
  | finite s u =>
    refine iff_of_true ?_ rfl
    unfold spelled
    dsimp only
    split_ifs
    · exact .of_digits (all_isDigit_toDigits _) Nat.toDigits_ne_nil
    · exact isNumeral_text
  | _ =>
    exact iff_of_false (not_isNumeral_of_mem (spelled_mem_overflowWords rfl)) Bool.false_ne_true

/-- A whole number below `10¹⁵` is spelled by its digits, and zero without a sign. -/
theorem spelled_whole (negative : Bool) {n : Nat} (small : n < 10 ^ 15) :
    (finite negative (n * unitsPerOne)).spelled =
      signText (negative && n != 0) ++ Nat.toDigits 10 n := by
  have one := unitsPerOne_pos
  have whole : isWhole (.finite negative (n * unitsPerOne)) = true := by simp [isWhole]
  have bound : n * unitsPerOne < Nat.pow 10 15 * unitsPerOne :=
    Nat.mul_lt_mul_of_pos_right small one
  have zero : (n * unitsPerOne != 0) = (n != 0) := by
    rw [Bool.eq_iff_iff, bne_iff_ne, bne_iff_ne, Nat.mul_ne_zero_iff]
    exact and_iff_left one.ne'
  rw [spelled, whole]
  simp only [absLt, bound, decide_true, Bool.and_self, if_true, zero, Nat.mul_div_cancel n one]

end Binary64

theorem Numeral.isFinite_value_iff (n : Numeral) :
    n.value.isFinite ↔ n.coefficient < Binary64.overflow * 10 ^ n.fraction.length :=
  Binary64.isFinite_ofRatio_iff (Nat.pow_pos (by decide))

end Inspector
