import Inspector.Proofs.Number.Nearest
import Inspector.Proofs.Number.Numeral

/-!
# What is read as a quantity

A text is a quantity exactly if, but for the blanks at its ends, it is a numeral with a unit behind
it or nothing, and its number is then the one nearest to what the numeral writes. To match the text
with a wider class of digits first and to read what has matched as a number comes to the same: the
second reader refuses the digits that are not plain.

    ofText? t = some q ↔
      ∃ n, IsWritten (trim t) n q.unit ∧ Rounds n.decimal n.negative q.magnitude   (ofText?_exact)
    Matches digit n point → (Binary64.ofText? (n.written point) = some x ↔ n.IsDigits ∧ x = n.value)
                                                                            (ofText?_written_iff)
-/

namespace Inspector

open Text

/-- The number that a numeral writes, exactly. -/
def Numeral.decimal (n : Numeral) : ℚ :=
  Binary64.sign n.negative * (n.coefficient / 10 ^ n.fraction.length)

theorem Numeral.rounds_decimal_iff {n : Numeral} {x : Binary64} :
    Binary64.Rounds n.decimal n.negative x ↔ x = n.value := by
  have power : (10 : ℚ) ^ n.fraction.length = ((Nat.pow 10 n.fraction.length : ℕ) : ℚ) := by
    rw [Nat.pow_eq, Nat.cast_pow]
    rfl
  rw [decimal, power]
  exact Binary64.rounds_iff (Nat.pow_pos (by decide))

/-- Numerals that write the same number, with the same sign, are read as the same. -/
theorem Numeral.value_eq_of_decimal {n n' : Numeral} (same : n.decimal = n'.decimal)
    (sign : n.negative = n'.negative) : n.value = n'.value := by
  have rounds : Binary64.Rounds n.decimal n.negative n.value := rounds_decimal_iff.2 rfl
  rw [same, sign] at rounds
  exact rounds_decimal_iff.1 rounds

/-! ## Whole numerals -/

/-- The whole number with this sign and this absolute value. -/
def signed (negative : Bool) (n : Nat) : ℤ := if negative then -n else n

@[simp] theorem signed_true (n : Nat) : signed true n = -n := rfl

@[simp] theorem signed_false (n : Nat) : signed false n = n := rfl

theorem natAbs_signed (negative : Bool) (n : Nat) : (signed negative n).natAbs = n := by
  cases negative <;> simp [signed]

namespace Numeral

variable {n : Numeral} {k : ℤ}

/-- A numeral that writes a whole number has its sign and its digits, with zeros behind the point. -/
theorem eq_signed_of_decimal (h : n.decimal = k) : signed n.negative k.natAbs = k ∧
    n.coefficient = k.natAbs * 10 ^ n.fraction.length := by
  have pos : (0 : ℚ) < 10 ^ n.fraction.length := by positivity
  have size : (n.coefficient : ℚ) = Binary64.sign n.negative * k * 10 ^ n.fraction.length := by
    rw [← h, decimal, ← mul_assoc, Binary64.sign_mul_self, one_mul, div_mul_cancel₀ _ pos.ne']
  have side : 0 ≤ Binary64.sign n.negative * k := by
    by_contra less
    have := mul_neg_of_neg_of_pos (not_le.1 less) pos
    rw [← size] at this
    exact absurd this (not_lt.2 (Nat.cast_nonneg _))
  have own : signed n.negative k.natAbs = k := by
    cases hs : n.negative with
    | true =>
      rw [hs, Binary64.sign, if_pos rfl, neg_one_mul, neg_nonneg] at side
      have : k ≤ 0 := by exact_mod_cast side
      simp only [signed, if_true]
      omega
    | false =>
      rw [hs, Binary64.sign, if_neg Bool.false_ne_true, one_mul] at side
      have : 0 ≤ k := by exact_mod_cast side
      simp only [signed, Bool.false_eq_true, if_false]
      omega
  refine ⟨own, ?_⟩
  have absolute : Binary64.sign n.negative * (k : ℚ) = k.natAbs := by
    conv => lhs; rw [← own]
    cases n.negative <;> simp [signed, Binary64.sign]
  rw [absolute] at size
  exact_mod_cast size

/-- Whole numbers of up to 53 binary digits are read as they are. -/
theorem value_of_decimal (h : n.decimal = k) (small : |k| ≤ 2 ^ 53) :
    n.value = .finite n.negative (k.natAbs * Binary64.unitsPerOne) := by
  obtain ⟨-, digits⟩ := eq_signed_of_decimal h
  have bound : k.natAbs ≤ 2 ^ 53 := by
    have := Int.abs_eq_natAbs k
    omega
  have precise := Binary64.isPrecise_mul bound 1074
  refine Binary64.ofRatio_of_eq_mul precise (Nat.pow_pos (by decide)) ?_ ?_
  · rw [digits, Nat.pow_eq]
    ring
  · refine Nat.mul_lt_mul_of_pos_right (Nat.lt_of_le_of_lt bound ?_) Binary64.unitsPerOne_pos
    exact Nat.pow_lt_pow_right (by decide) (by decide)

end Numeral

/-! ## Quantities -/

namespace Quantity

/-- Nothing but numerals with a unit or without are quantities, and each is the nearest number to
what is written, in the unit that is written. -/
theorem ofText?_exact (t : Text) :
    ((ofText? t).isSome ↔ ∃ n unit, IsWritten (trim t) n unit) ∧
      ∀ q, ofText? t = some q ↔
        ∃ n, IsWritten (trim t) n q.unit ∧ Binary64.Rounds n.decimal n.negative q.magnitude := by
  constructor
  · rw [Option.isSome_iff_exists]
    constructor
    · rintro ⟨q, hq⟩
      obtain ⟨n, written, -⟩ := exists_isWritten hq
      exact ⟨n, q.unit, written⟩
    · rintro ⟨n, unit, written⟩
      exact ⟨_, ofText?_of_isWritten written⟩
  · intro q
    constructor
    · intro hq
      obtain ⟨n, written, value⟩ := exists_isWritten hq
      exact ⟨n, written, Numeral.rounds_decimal_iff.2 value⟩
    · rintro ⟨n, written, nearest⟩
      rw [ofText?_of_isWritten written, ← Numeral.rounds_decimal_iff.1 nearest]

example : ["10.".toList, ".5px".toList, " -0PX ".toList, "7%".toList].all fun t =>
    (ofText? t).isSome := by decide

example : ["+1".toList, "1e3".toList, "1 px".toList, "٣".toList, ".".toList].all fun t =>
    (ofText? t).isNone := by decide

end Quantity

/-! ## Two readers -/

namespace Binary64

theorem nearestUnits_eq_zero {num den : Nat} (small : 2 * (num * unitsPerOne) < den) :
    nearestUnits num den = 0 := by
  have floor : num * unitsPerOne / den = 0 := Nat.div_eq_of_lt (by omega)
  have unit : gap (num * unitsPerOne / den) = 1 := by
    rw [floor]
    rfl
  rw [nearestUnits_eq, rounded, unit, Nat.mul_one, Nat.mul_one, roundDiv, floor,
    Nat.mod_eq_of_lt (by omega), if_pos small]

theorem ofRatio_eq_zero {negative : Bool} {num den : Nat} (small : 2 * (num * unitsPerOne) < den) :
    ofRatio negative num den = .finite negative 0 := by
  have limit (e : Nat) : 0 < Nat.pow 2 e * unitsPerOne :=
    Nat.mul_pos (Nat.two_pow_pos e) unitsPerOne_pos
  rw [ofRatio, nearestUnits_eq_zero small, if_pos (limit 1024)]

/-- The size of an exponent far below the format settles a number as rounding does. -/
theorem ofDecimal_neg (negative : Bool) (coefficient places : Nat) :
    ofDecimal negative coefficient (0 - places) =
      ofRatio negative coefficient (Nat.pow 10 places) := by
  have pos : 0 < Nat.pow 10 places := Nat.pow_pos (by decide)
  unfold ofDecimal
  split_ifs with zero huge tiny upward
  · rw [zero, ofRatio_eq_zero (by rwa [Nat.zero_mul])]
  · omega
  · have digits : coefficient < 10 ^ (Nat.toDigits 10 coefficient).length :=
      (Nat.length_toDigits_le_iff (by decide) Nat.length_toDigits_pos).1 (Nat.le_refl _)
    have double (e : Nat) : 2 * Nat.pow 2 e = 2 ^ (e + 1) := (Nat.pow_succ' ..).symm
    have unit : 2 * unitsPerOne ≤ 10 ^ 400 :=
      calc 2 * unitsPerOne = 2 ^ (1074 + 1) := by rw [unitsPerOne, double]
        _ ≤ 2 ^ (3 * 400) := Nat.pow_le_pow_right Nat.two_pos (by decide)
        _ = (2 ^ 3) ^ 400 := Nat.pow_mul 2 3 400
        _ ≤ 10 ^ 400 := Nat.pow_le_pow_left (by decide) 400
    refine (ofRatio_eq_zero ?_).symm
    calc 2 * (coefficient * unitsPerOne) = coefficient * (2 * unitsPerOne) := by ring
      _ ≤ coefficient * 10 ^ 400 := Nat.mul_le_mul_left coefficient unit
      _ < 10 ^ (Nat.toDigits 10 coefficient).length * 10 ^ 400 :=
        Nat.mul_lt_mul_of_pos_right digits (Nat.pow_pos (by decide))
      _ = 10 ^ ((Nat.toDigits 10 coefficient).length + 400) := (Nat.pow_add ..).symm
      _ ≤ 10 ^ places := Nat.pow_le_pow_right (by decide) (by omega)
  · obtain rfl : places = 0 := by omega
    simp
  · rw [show (-(0 - places : ℤ)).toNat = places by omega]

/-- What an exponent adds to the power of ten. -/
def shift (e : Option (Bool × Text)) : Int :=
  e.elim 0 fun (down, digits) =>
    if down then -(Nat.ofDigitChars 10 digits 0 : Int) else Nat.ofDigitChars 10 digits 0

/-- A number in digits is a numeral and perhaps an exponent, with no sign before or text behind. -/
theorem ofDigits?_eq_some_iff {negative : Bool} {t : Text} {x : Binary64} :
    ofDigits? negative t = some x ↔ t.head? ≠ some '-' ∧
      ∃ n r e, Numeral.read? t = some (n, r) ∧ Numeral.exponent? r = some (e, []) ∧
        x = ofDecimal negative n.coefficient (shift e - n.fraction.length) := by
  unfold ofDigits?
  dsimp only
  constructor
  · intro h
    split_ifs at h with minus
    · cases h
    · obtain ⟨⟨n, r⟩, hn, h⟩ := Option.bind_eq_some_iff.1 h
      obtain ⟨⟨e, left⟩, he, h⟩ := Option.bind_eq_some_iff.1 h
      dsimp only at h
      split_ifs at h with more
      · cases h
      · obtain rfl : left = [] := by simpa using more
        exact ⟨minus, n, r, e, hn, he, (Option.some.inj h).symm⟩
  · rintro ⟨minus, n, r, e, hn, he, rfl⟩
    rw [if_neg minus, hn]
    show (Numeral.exponent? r).bind _ = _
    rw [he]
    rfl

end Binary64

/-- A class of digits that has the ten plain ones, and no other character of the basic alphabet. -/
structure IsDigitClass (digit : Char → Bool) : Prop where
  plain : ∀ c, c.isDigit → digit c
  foreign : ∀ c, digit c → c.isDigit ∨ 128 ≤ c.toNat

namespace Numeral

/-- The numeral has digits of a class only, one at least, and has a point if it has a fraction. -/
structure Matches (digit : Char → Bool) (n : Numeral) (point : Bool) : Prop where
  whole : n.whole.all digit
  fraction : n.fraction.all digit
  some_digit : n.whole ++ n.fraction ≠ []
  noPoint : point = false → n.fraction = []

variable {digit : Char → Bool} {n : Numeral} {point : Bool}

theorem IsDigits.matches (cls : IsDigitClass digit) (digits : n.IsDigits)
    (noPoint : point = false → n.fraction = []) : n.Matches digit point where
  whole := List.all_eq_true.2 fun c hc => cls.plain c (List.all_eq_true.1 digits.whole c hc)
  fraction := List.all_eq_true.2 fun c hc => cls.plain c (List.all_eq_true.1 digits.fraction c hc)
  some_digit := digits.some_digit
  noPoint := noPoint

/-- A numeral without its sign. -/
def body (n : Numeral) (point : Bool) : Text := n.whole ++ n.behindWhole point

theorem Matches.of_mem_body (cls : IsDigitClass digit) (h : n.Matches digit point) {c : Char}
    (hc : c ∈ n.body point) : c = '.' ∨ c.isDigit ∨ 128 ≤ c.toNat := by
  rw [body, behindWhole, List.mem_append] at hc
  rcases hc with whole | fraction
  · exact .inr (cls.foreign c (List.all_eq_true.1 h.whole c whole))
  · split at fraction
    · rcases List.mem_cons.1 fraction with dot | fraction
      · exact .inl dot
      · exact .inr (cls.foreign c (List.all_eq_true.1 h.fraction c fraction))
    · cases fraction

/-- Neither signs nor letters are in the body. -/
theorem Matches.toNat_of_mem_body (cls : IsDigitClass digit) (h : n.Matches digit point) {c : Char}
    (hc : c ∈ n.body point) : 46 ≤ c.toNat ∧ c.toNat ≤ 57 ∨ 128 ≤ c.toNat := by
  rcases h.of_mem_body cls hc with rfl | digit | foreign
  · decide
  · have bounds := Bool.and_eq_true_iff.1 digit
    have low : 48 ≤ c.toNat := of_decide_eq_true bounds.1
    have high : c.toNat ≤ 57 := of_decide_eq_true bounds.2
    omega
  · exact .inr foreign

theorem written_eq (n : Numeral) (point : Bool) :
    n.written point = (if n.negative then ['-'] else []) ++ n.body point := by
  simp [written, body, behindWhole]

theorem Matches.unsigned_written (cls : IsDigitClass digit) (h : n.Matches digit point) :
    unsigned (n.written point) = (n.negative, n.body point) := by
  rw [written_eq]
  cases n.negative with
  | true => rfl
  | false =>
    show unsigned (n.body point) = _
    unfold unsigned
    split
    · next r hr =>
      have minus := h.toNat_of_mem_body cls (c := '-') (by rw [hr]; exact List.mem_cons_self)
      exact absurd minus (by decide)
    · next r hr =>
      have plus := h.toNat_of_mem_body cls (c := '+') (by rw [hr]; exact List.mem_cons_self)
      exact absurd plus (by decide)
    · rfl

theorem Matches.ofWord?_body (cls : IsDigitClass digit) (h : n.Matches digit point)
    (negative : Bool) : Binary64.ofWord? negative (n.body point) = none := by
  have noLetter {word : Text} (hn : 'n' ∈ lower word) : sameWord (n.body point) word = false := by
    rw [sameWord, beq_eq_false_iff_ne]
    intro same
    rw [← same] at hn
    obtain ⟨c, hc, letter⟩ := List.mem_map.1 hn
    have code : c.toLower.toNat = 110 := congrArg Char.toNat letter
    have := h.toNat_of_mem_body cls hc
    rcases toLower_cases c with same | ⟨_, _, shifted⟩
    · rw [same] at code
      omega
    · omega
  rw [Binary64.ofWord?, noLetter (by decide), noLetter (by decide), noLetter (by decide)]
  rfl

/-- What stands behind the digits of a body is no exponent. -/
theorem Matches.eq_nil_of_exponent? (cls : IsDigitClass digit) (h : n.Matches digit point)
    {rest : Text} (inside : rest ⊆ n.body point) {e : Option (Bool × Text)}
    (he : exponent? rest = some (e, [])) : rest = [] := by
  cases rest with
  | nil => rfl
  | cons c rest =>
    have code := h.toNat_of_mem_body cls (inside List.mem_cons_self)
    have noLetter : ¬ (c = 'e' ∨ c = 'E') := by
      rintro (rfl | rfl)
      · exact absurd code (by decide)
      · exact absurd code (by decide)
    simp [exponent?, noLetter] at he

theorem ofDigits?_body (digits : n.IsDigits) (noPoint : point = false → n.fraction = []) :
    Binary64.ofDigits? n.negative (n.body point) = some n.value := by
  have unsigned := head?_ne_minus digits noPoint []
  rw [List.append_nil] at unsigned
  have plain : (⟨false, n.whole, n.fraction⟩ : Numeral).IsDigits :=
    ⟨digits.whole, digits.fraction, digits.some_digit⟩
  have bare : n.body point = (⟨false, n.whole, n.fraction⟩ : Numeral).written point ++ [] := by
    rw [List.append_nil, written_eq]
    rfl
  have read : read? (n.body point) = some (⟨false, n.whole, n.fraction⟩, []) := by
    rw [bare]
    exact read?_written plain noPoint nofun
  refine Binary64.ofDigits?_eq_some_iff.2 ⟨unsigned, _, [], none, read, rfl, ?_⟩
  exact (Binary64.ofDecimal_neg n.negative n.coefficient n.fraction.length).symm

/-- A number in digits of a class is read only if they are plain. -/
theorem Matches.isDigits_of_ofDigits? (cls : IsDigitClass digit) (h : n.Matches digit point)
    {negative : Bool} {x : Binary64} (hx : Binary64.ofDigits? negative (n.body point) = some x) :
    n.IsDigits := by
  obtain ⟨-, n', rest, e, read, he, -⟩ := Binary64.ofDigits?_eq_some_iff.1 hx
  obtain ⟨digits, point', whole, -⟩ := eq_of_read? read
  have nothing : rest = [] :=
    h.eq_nil_of_exponent? cls (by rw [whole]; exact List.subset_append_right _ _) he
  have each : ∀ c, digit c → c ∈ n.body point → c.isDigit := by
    intro c hc inside
    rw [whole, nothing, List.append_nil] at inside
    rcases mem_written digits inside with rfl | rfl | plain
    · exact absurd (cls.foreign _ hc) (by decide)
    · exact absurd (cls.foreign _ hc) (by decide)
    · exact plain
  refine ⟨List.all_eq_true.2 fun c hc => ?_, List.all_eq_true.2 fun c hc => ?_, h.some_digit⟩
  · exact each c (List.all_eq_true.1 h.whole c hc) (List.mem_append_left _ hc)
  · refine each c (List.all_eq_true.1 h.fraction c hc) (List.mem_append_right _ ?_)
    cases point with
    | true => exact List.mem_cons_of_mem _ hc
    | false =>
      rw [h.noPoint rfl] at hc
      cases hc

/-- Of the numerals in digits of a class, those in plain digits are read as numbers. -/
theorem Matches.ofText?_written_iff (cls : IsDigitClass digit) (h : n.Matches digit point)
    {x : Binary64} : Binary64.ofText? (n.written point) = some x ↔ n.IsDigits ∧ x = n.value := by
  unfold Binary64.ofText?
  rw [h.unsigned_written cls]
  dsimp only
  rw [h.ofWord?_body cls]
  show Binary64.ofDigits? n.negative (n.body point) = some x ↔ _
  constructor
  · intro hx
    have digits := h.isDigits_of_ofDigits? cls hx
    rw [ofDigits?_body digits h.noPoint] at hx
    exact ⟨digits, (Option.some.inj hx).symm⟩
  · rintro ⟨digits, value⟩
    rw [value, ofDigits?_body digits h.noPoint]

end Numeral

/-- A quantity is also what is left if its numeral is first matched with a class of digits that has
further ones, and is then read as a number: the second reader refuses the further digits. -/
theorem Quantity.ofText?_eq_some_iff_matches {digit : Char → Bool} (cls : IsDigitClass digit)
    {t : Text} {q : Quantity} : ofText? t = some q ↔
      ∃ (n : Numeral) (point : Bool) (suffix : Text), n.Matches digit point ∧
        lower suffix = Measure.suffix q.unit ∧ trim t = n.written point ++ suffix ∧
        Binary64.ofText? (n.written point) = some q.magnitude := by
  constructor
  · intro hq
    obtain ⟨n, ⟨digits, point, suffix, noPoint, spelled, ht⟩, value⟩ := exists_isWritten hq
    have found := digits.matches cls noPoint
    exact ⟨n, point, suffix, found, spelled, ht, (found.ofText?_written_iff cls).2 ⟨digits, value⟩⟩
  · rintro ⟨n, point, suffix, found, spelled, ht, number⟩
    obtain ⟨digits, value⟩ := (found.ofText?_written_iff cls).1 number
    rw [ofText?_of_isWritten ⟨digits, point, suffix, found.noPoint, spelled, ht⟩, ← value]

end Inspector
