import Inspector.Appearance
import Inspector.Proofs.Number.Canonical
import Inspector.Stroke

/-!
# Spellings of one whole number

A whole number below `10¹⁵` may be written with zeros in front, with a point and zeros behind it, and
zero with a minus sign. Every field that reads it makes the same of it, since what is read differs in
the sign of zero at most, which no test of a field sees and no numeral shows.

    x.Same y → the tests and the spellings of x and y agree
    WritesWhole t k unit → WritesWhole t' k unit → |k| < 10¹⁵ →
      the numeral of k is spelled, and all readers agree on t and t'     (whole_numbers_read_alike)
-/

namespace Inspector

open Text

/-! ## Tests -/

namespace Binary64

variable {x y : Binary64}

theorem isNegative_of_same (h : x.Same y) : x.isNegative = y.isNegative := by
  cases h with
  | refl => rfl
  | zero s s' => rw [isNegative, isNegative, bne_self_eq_false, Bool.and_false, Bool.and_false]

theorem isZero_of_same (h : x.Same y) : x.isZero = y.isZero := by
  cases h <;> rfl

theorem isWhole_of_same (h : x.Same y) : x.isWhole = y.isWhole := by
  cases h <;> rfl

theorem absLe_of_same (h : x.Same y) (n : Nat) : x.absLe n = y.absLe n := by
  cases h <;> rfl

theorem isNat_of_same (h : x.Same y) (n : Nat) : x.isNat n = y.isNat n := by
  cases h with
  | refl => rfl
  | zero s s' =>
    cases n with
    | zero => simp [isNat]
    | succ n =>
      have other : (0 == (n + 1) * unitsPerOne) = false :=
        beq_eq_false_iff_ne.2 (Nat.mul_pos n.succ_pos unitsPerOne_pos).ne
      rw [isNat, isNat, other, Bool.false_and, Bool.false_and]

end Binary64

/-! ## Readers -/

/-- Both values are quantities in one unit, of one number but for the sign of zero. -/
structure Quantity.ReadAlike (t t' : Text) (x y : Binary64) (unit : Option Measure) : Prop where
  left : ofText? t = some ⟨x, unit⟩
  right : ofText? t' = some ⟨y, unit⟩
  same : x.Same y

section

variable {t t' : Text} {x y : Binary64} {unit : Option Measure}

namespace Fragment

theorem inPixels_of_same (h : x.Same y) : inPixels x = inPixels y := by
  rw [inPixels, inPixels, Binary64.spelled_of_same h]

theorem inPercent_of_same (h : x.Same y) : inPercent x = inPercent y := by
  rw [inPercent, inPercent, Binary64.spelled_of_same h]

/-- Numbers of pixels are read of both values or of neither. -/
theorem pixels?_of_readAlike (h : Quantity.ReadAlike t t' x y unit) :
    pixels? t = none ∧ pixels? t' = none ∨ pixels? t = some x ∧ pixels? t' = some y := by
  have units : Quantity.isPixels ⟨y, unit⟩ = Quantity.isPixels ⟨x, unit⟩ := rfl
  rw [pixels?, pixels?, h.left, h.right, Option.filter, Option.filter, units]
  cases Quantity.isPixels ⟨x, unit⟩ with
  | true => exact .inr ⟨rfl, rfl⟩
  | false => exact .inl ⟨rfl, rfl⟩

theorem ofPixels?_of_readAlike (h : Quantity.ReadAlike t t' x y unit) :
    ofPixels? t = ofPixels? t' := by
  rw [ofPixels?, ofPixels?]
  rcases pixels?_of_readAlike h with ⟨ht, ht'⟩ | ⟨ht, ht'⟩
  · rw [ht, ht']
  · rw [ht, ht', Option.map_some, Option.map_some, inPixels_of_same h.same]

theorem ofLength?_of_readAlike (h : Quantity.ReadAlike t t' x y unit) :
    ofLength? t = ofLength? t' := by
  rw [ofLength?, ofLength?, h.left, h.right, Option.bind_some, Option.bind_some]
  dsimp only
  rw [inPixels_of_same h.same, inPercent_of_same h.same]

theorem ofPercent?_of_readAlike (h : Quantity.ReadAlike t t' x y unit) :
    ofPercent? t = ofPercent? t' := by
  rw [ofPercent?, ofPercent?, h.left, h.right, Option.bind_some, Option.bind_some]
  dsimp only
  rw [Binary64.isNegative_of_same h.same, Binary64.absLe_of_same h.same,
    Binary64.isWhole_of_same h.same, Binary64.spelled_of_same h.same, inPercent_of_same h.same]

end Fragment

theorem Stroke.weightClass?_of_readAlike (h : Quantity.ReadAlike t t' x y unit) (lead : Text) :
    weightClass? lead t = weightClass? lead t' := by
  rw [weightClass?, weightClass?]
  rcases Fragment.pixels?_of_readAlike h with ⟨ht, ht'⟩ | ⟨ht, ht'⟩
  · rw [ht, ht']
  · have tests : x.isNat = y.isNat := funext (Binary64.isNat_of_same h.same)
    rw [ht, ht', Option.filter, Option.filter, Binary64.isNegative_of_same h.same]
    split
    · rw [Option.map_some, Option.map_some, tests, Binary64.spelled_of_same h.same,
        Fragment.inPixels_of_same h.same]
    · rfl

theorem Appearance.radiusFragment?_of_readAlike (h : Quantity.ReadAlike t t' x y unit) :
    radiusFragment? t = radiusFragment? t' := by
  rw [radiusFragment?, radiusFragment?, h.left, h.right, Option.bind_some, Option.bind_some]
  dsimp only
  rw [Binary64.isNegative_of_same h.same, Binary64.isZero_of_same h.same,
    Fragment.inPixels_of_same h.same, Fragment.inPercent_of_same h.same]

end

/-! ## Whole numbers -/

/-- The value is a numeral that writes the whole number `k`, with this unit behind it. -/
def WritesWhole (t : Text) (k : ℤ) (unit : Option Measure) : Prop :=
  ∃ n, IsWritten (trim t) n unit ∧ n.decimal = k

/-- A whole number below `10¹⁵` is spelled by its one canonical numeral, however it is written, and
two values that write it in one unit are read alike by every field. -/
theorem whole_numbers_read_alike {k : ℤ} (small : |k| < 10 ^ 15) {unit : Option Measure}
    {t t' : Text} (h : WritesWhole t k unit) (h' : WritesWhole t' k unit) :
    (∃ x, Quantity.ofText? t = some ⟨x, unit⟩ ∧ ∀ u, IsNumeralOf k u ↔ u = x.spelled) ∧
    Fragment.ofLength? t = Fragment.ofLength? t' ∧
    Fragment.ofPixels? t = Fragment.ofPixels? t' ∧
    Fragment.ofPercent? t = Fragment.ofPercent? t' ∧
    (∀ lead, Stroke.weightClass? lead t = Stroke.weightClass? lead t') ∧
    Appearance.radiusFragment? t = Appearance.radiusFragment? t' := by
  obtain ⟨n, written, whole⟩ := h
  obtain ⟨n', written', whole'⟩ := h'
  have alike : Quantity.ReadAlike t t' n.value n'.value unit :=
    ⟨Quantity.ofText?_of_isWritten written, Quantity.ofText?_of_isWritten written',
      Numeral.same_of_whole whole whole' small⟩
  exact ⟨⟨n.value, alike.left, Numeral.isNumeralOf_iff_spelled whole small⟩,
    Fragment.ofLength?_of_readAlike alike, Fragment.ofPixels?_of_readAlike alike,
    Fragment.ofPercent?_of_readAlike alike, Stroke.weightClass?_of_readAlike alike,
    Appearance.radiusFragment?_of_readAlike alike⟩

/-- Zero with a sign and decimals is zero. -/
theorem zero_read_alike :
    |(0 : ℤ)| < 10 ^ 15 ∧ WritesWhole "-000.00px" 0 (some .px) ∧ WritesWhole " 0PX" 0 (some .px) ∧
    (∃ x, Quantity.ofText? "-000.00px" = some ⟨x, some .px⟩ ∧
      ∀ u, IsNumeralOf 0 u ↔ u = x.spelled) ∧
    Fragment.ofLength? "-000.00px" = Fragment.ofLength? " 0PX" ∧
    Stroke.weightClass? "border" "-000.00px" = Stroke.weightClass? "border" " 0PX" := by
  have long : WritesWhole "-000.00px" 0 (some .px) := by
    refine ⟨⟨true, "000", "00"⟩, ⟨⟨by decide, by decide, by decide⟩, true, "px", nofun, by decide,
      by decide⟩, ?_⟩
    have digits : Numeral.coefficient ⟨true, "000", "00"⟩ = 0 := by decide
    rw [Numeral.decimal, digits]
    simp
  have short : WritesWhole " 0PX" 0 (some .px) := by
    refine ⟨⟨false, "0", []⟩, ⟨⟨by decide, by decide, by decide⟩, false, "PX", fun _ => rfl,
      by decide, by decide⟩, ?_⟩
    have digits : Numeral.coefficient ⟨false, "0", []⟩ = 0 := by decide
    rw [Numeral.decimal, digits]
    simp
  have small : |(0 : ℤ)| < 10 ^ 15 := by decide
  obtain ⟨spelled, length, -, -, weight, -⟩ := whole_numbers_read_alike small long short
  exact ⟨small, long, short, spelled, length, weight "border"⟩

end Inspector
