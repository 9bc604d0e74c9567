import Inspector.Proofs.Group
import Inspector.Proofs.Number.Built

/-!
# Lengths that are not negative

A number is spelled with a minus sign exactly if it is less than zero: the negative zero has none,
and a decimal begins with a digit, however large or small it is. So a length is refused for its
spelling exactly if it is refused for its number.

    isMinus (inPixels x) = x.isNegative                                          (isMinus_inPixels)
    ofExtent? v = some f ↔ ∃ x, IsExtent v x ∧ f = inPixels x               (ofExtent?_eq_some_iff)
    Group.strip? v = none → ((∃ y, ofSize? v = some (inPixels y)) ↔ ∃ x, IsExtent v x)
                                                                        (ofSize?_eq_inPixels_iff)
-/

namespace Inspector

open Text

/-! ## Signs -/

theorem head?_ne_minus_of_digits {digits : Text} (h : digits.all Char.isDigit) (ne : digits ≠ [])
    (rest : Text) : (digits ++ rest).head? ≠ some '-' := by
  cases digits with
  | nil => exact absurd rfl ne
  | cons c digits =>
    rintro ⟨⟩
    exact absurd (List.all_eq_true.1 h '-' List.mem_cons_self) (by decide)

theorem Decimal.head?_positional_ne_minus (d : Decimal) : d.positional.head? ≠ some '-' := by
  have digits : d.digits.all Char.isDigit := all_isDigit_toDigits d.coefficient
  have some_digit : d.digits ≠ [] := Nat.toDigits_ne_nil
  unfold positional
  dsimp only
  split_ifs with upward short
  · exact head?_ne_minus_of_digits digits some_digit _
  · simp
  · rw [List.append_assoc]
    refine head?_ne_minus_of_digits ?_ ?_ _
    · exact List.all_eq_true.2 fun c hc => List.all_eq_true.1 digits c (List.mem_of_mem_take hc)
    · rw [← List.length_pos_iff, List.length_take]
      omega

namespace Binary64

/-- A sign in front of a text without one. -/
theorem head?_signText_append {t : Text} (h : t.head? ≠ some '-') (negative : Bool) :
    ((signText negative ++ t).head? == some '-') = negative := by
  cases negative with
  | true => rfl
  | false => exact beq_eq_false_iff_ne.2 h

/-- Nothing but the numbers less than zero have a minus sign. -/
theorem head?_spelled (x : Binary64) : (x.spelled.head? == some '-') = x.isNegative := by
  cases x with
  | nan => rfl
  | infinite s => exact head?_signText_append (by decide) s
  | finite s u =>
    unfold spelled
    dsimp only
    split_ifs with small
    · have digits := head?_ne_minus_of_digits (all_isDigit_toDigits (u / unitsPerOne))
        Nat.toDigits_ne_nil []
      rw [List.append_nil] at digits
      exact head?_signText_append digits _
    · have positive : u ≠ 0 := by
        rintro rfl
        refine small ?_
        have one : 0 < Nat.pow 10 15 * unitsPerOne := Nat.mul_pos (by decide) unitsPerOne_pos
        simp [isWhole, absLt, one]
      rw [text, if_neg positive, head?_signText_append (Decimal.head?_positional_ne_minus _)]
      simp [isNegative, positive]

/-- Numbers are spelled with signs, points, digits, and the letters of the overflow words. -/
theorem not_mem_spelled (x : Binary64) {c : Char} (digit : c.isDigit = false)
    (other : c ∉ '-' :: '.' :: overflowWords.flatten) : c ∉ x.spelled := by
  rw [List.mem_cons, List.mem_cons, not_or, not_or] at other
  obtain ⟨minus, point, letter⟩ := other
  intro hc
  cases h : x.isFinite with
  | true =>
    rcases ((isNumeral_spelled_iff x).2 h).char_of_mem hc with rfl | rfl | own
    · exact minus rfl
    · exact point rfl
    · rw [digit] at own
      cases own
  | false => exact letter (List.mem_flatten_of_mem (spelled_mem_overflowWords h) hc)

theorem not_mem_brackets (x : Binary64) {c : Char} (hc : c ∈ x.spelled) : c ∉ Group.brackets := by
  have each : Group.brackets.all fun b =>
      b.isDigit = false ∧ b ∉ '-' :: '.' :: overflowWords.flatten := by decide
  intro bracket
  obtain ⟨digit, other⟩ := of_decide_eq_true (List.all_eq_true.1 each c bracket)
  exact x.not_mem_spelled digit other hc

end Binary64

namespace Fragment

theorem isMinus_inPixels (x : Binary64) : isMinus (inPixels x) = x.isNegative := by
  rw [← x.head?_spelled, isMinus, inPixels]
  show List.isPrefixOf ['[', '-'] ('[' :: (x.spelled ++ "px]".toList)) = _
  cases x.spelled with
  | nil => rfl
  | cons c t =>
    rw [Bool.eq_iff_iff]
    simpa [List.isPrefixOf] using eq_comm

/-! ## Lengths -/

/-- The value is a quantity in pixels, or without a unit, of a number that is not less than zero. -/
structure IsExtent (v : Text) (x : Binary64) : Prop where
  quantity : ∃ q, Quantity.ofText? v = some q ∧ q.isPixels ∧ q.magnitude = x
  nonneg : x.isNegative = false

theorem pixels?_eq_some_iff {v : Text} {x : Binary64} :
    pixels? v = some x ↔ ∃ q, Quantity.ofText? v = some q ∧ q.isPixels ∧ q.magnitude = x := by
  simp only [pixels?, Option.map_eq_some_iff, Option.filter_eq_some_iff, and_assoc]

theorem filter_pixels?_eq_some_iff {v : Text} {x : Binary64} :
    (pixels? v).filter (!·.isNegative) = some x ↔ IsExtent v x := by
  rw [Option.filter_eq_some_iff, pixels?_eq_some_iff, Bool.not_eq_true']
  exact ⟨fun ⟨quantity, nonneg⟩ => ⟨quantity, nonneg⟩, fun h => ⟨h.quantity, h.nonneg⟩⟩

theorem ofExtent?_eq_some_iff {v f : Text} :
    ofExtent? v = some f ↔ ∃ x, IsExtent v x ∧ f = inPixels x := by
  rw [ofExtent?, ofPixels?, Option.filter_eq_some_iff, Option.map_eq_some_iff]
  constructor
  · rintro ⟨⟨x, hx, rfl⟩, sign⟩
    rw [Bool.not_eq_true', isMinus_inPixels] at sign
    exact ⟨x, ⟨pixels?_eq_some_iff.1 hx, sign⟩, rfl⟩
  · rintro ⟨x, ⟨quantity, nonneg⟩, rfl⟩
    refine ⟨⟨x, pixels?_eq_some_iff.2 quantity, rfl⟩, ?_⟩
    rw [Bool.not_eq_true', isMinus_inPixels, nonneg]

theorem ofExtent?_of_isExtent {v : Text} {x : Binary64} (h : IsExtent v x) :
    ofExtent? v = some (inPixels x) :=
  ofExtent?_eq_some_iff.2 ⟨x, h, rfl⟩

theorem isSome_ofExtent?_iff {v : Text} : (ofExtent? v).isSome ↔ ∃ x, IsExtent v x := by
  rw [Option.isSome_iff_exists]
  simp only [ofExtent?_eq_some_iff]
  constructor
  · rintro ⟨f, x, hx, -⟩
    exact ⟨x, hx⟩
  · rintro ⟨x, hx⟩
    exact ⟨_, x, hx, rfl⟩

/-- No length in pixels is passed through without being a group. -/
theorem strip?_inPixels (x : Binary64) : Group.strip? (inPixels x) ≠ none := by
  have measure : "px".toList.all (· ∉ Group.brackets) := by decide
  have plain : ∀ c ∈ x.spelled ++ "px".toList, c ∉ Group.brackets := by
    intro c hc
    rcases List.mem_append.1 hc with number | unit
    · exact x.not_mem_brackets number
    · exact of_decide_eq_true (List.all_eq_true.1 measure c unit)
  have inside : Group.strip? ('[' :: (x.spelled ++ "px".toList) ++ [']']) =
      some (x.spelled ++ "px".toList) :=
    Group.strip?_enclosed (by decide) (by decide) (by decide) (Group.isBalanced_of_not_mem plain)
  have whole : inPixels x = '[' :: (x.spelled ++ "px".toList) ++ [']'] := by
    simp [inPixels]
  rw [whole, inside]
  exact Option.some_ne_none _

/-! ## Sizes -/

/-- Of the sizes, a quantity can be a length only. -/
theorem ofSize?_of_quantity {v : Text} {q : Quantity} (hq : Quantity.ofText? v = some q) :
    ofSize? v = (ofLength? v).filter (!isMinus ·) := by
  have word := Quantity.lower_not_mem ["fill", "hug"] (by decide) hq
  simp only [List.mem_cons, List.not_mem_nil, or_false, not_or] at word
  have noFraction : isFraction v = false := by
    rw [Bool.eq_false_iff]
    intro h
    rw [not_quantity_of_isFraction h] at hq
    cases hq
  have noPassThrough : isPassThrough v = false := by
    rw [Bool.eq_false_iff]
    intro h
    rw [not_quantity_of_isPassThrough h] at hq
    cases hq
  rw [ofSize?, if_neg word.1, if_neg word.2, noFraction, noPassThrough]
  cases (ofLength? v).filter (!isMinus ·) <;> rfl

theorem ofLength?_of_pixels? {v : Text} {x : Binary64} (h : pixels? v = some x) :
    ofLength? v = some (inPixels x) := by
  obtain ⟨q, hq, pixels, rfl⟩ := pixels?_eq_some_iff.1 h
  rw [Quantity.isPixels, Bool.or_eq_true, beq_iff_eq, beq_iff_eq] at pixels
  rw [ofLength?, hq, Option.bind_some]
  rcases pixels with unit | unit
  · rw [unit]
  · rw [unit]

theorem ofSize?_of_pixels? {v : Text} {x : Binary64} (h : pixels? v = some x) :
    ofSize? v = (some (inPixels x)).filter (!isMinus ·) := by
  obtain ⟨q, hq, -, -⟩ := pixels?_eq_some_iff.1 h
  rw [ofSize?_of_quantity hq, ofLength?_of_pixels? h]

theorem ofSize?_of_isExtent {v : Text} {x : Binary64} (h : IsExtent v x) :
    ofSize? v = some (inPixels x) := by
  rw [ofSize?_of_pixels? (pixels?_eq_some_iff.2 h.quantity), Option.filter_some, isMinus_inPixels,
    h.nonneg]
  rfl

theorem inPercent_ne_inPixels (x y : Binary64) : inPercent x ≠ inPixels y := by
  intro same
  have percent : inPercent x = ("[" ++ x.spelled) ++ "%]" := rfl
  have pixels : inPixels y = ("[" ++ y.spelled ++ ['p']) ++ "x]" := by simp [inPixels]
  rw [percent, pixels] at same
  cases List.append_inj_right' same rfl

theorem exists_isExtent {v : Text} {y : Binary64} (h : ofLength? v = some (inPixels y))
    (sign : isMinus (inPixels y) = false) : ∃ x, IsExtent v x := by
  obtain ⟨q, hq, h⟩ := Option.bind_eq_some_iff.1 h
  have extent (pixels : q.isPixels) (same : inPixels q.magnitude = inPixels y) :
      ∃ x, IsExtent v x := by
    rw [← same, isMinus_inPixels] at sign
    exact ⟨q.magnitude, ⟨q, hq, pixels, rfl⟩, sign⟩
  split at h
  · next unit => exact extent (by rw [Quantity.isPixels, unit]; rfl) (Option.some.inj h)
  · next unit => exact extent (by rw [Quantity.isPixels, unit]; rfl) (Option.some.inj h)
  · exact absurd (Option.some.inj h) (inPercent_ne_inPixels _ _)
  · cases h

/-- A size that is no group is a length in pixels exactly if it is one as an extent. -/
theorem ofSize?_eq_inPixels_iff {v : Text} (ungrouped : Group.strip? v = none) :
    (∃ y, ofSize? v = some (inPixels y)) ↔ ∃ x, IsExtent v x := by
  constructor
  · rintro ⟨y, h⟩
    unfold ofSize? at h
    split at h
    · cases Option.some.inj h
    · split at h
      · cases Option.some.inj h
      · split at h
        · next f hf =>
          obtain rfl := Option.some.inj h
          obtain ⟨length, sign⟩ := Option.filter_eq_some_iff.1 hf
          exact exists_isExtent length (by simpa using sign)
        · split at h
          · exact absurd (Option.some.inj h ▸ ungrouped) (strip?_inPixels y)
          · cases h
  · rintro ⟨x, h⟩
    exact ⟨x, ofSize?_of_isExtent h⟩

end Fragment

end Inspector
