import Inspector.Fragment
import Inspector.Proofs.Number.Spelled
import Inspector.Proofs.Text
import Inspector.Token

/-!
# Opacities

Appearances, fills and strokes give an opacity under the same key and read it as a percentage: a
numeral with or without a percent sign, of a number from 0 to 100. A whole number is shown by its
digits, any other by its decimal text in square brackets.

    Fragment.ofPercent? value = some f ↔ ∃ negative units, IsPercent value negative units ∧
      f = percentText units                                                 (ofPercent?_eq_some_iff)
-/

namespace Inspector

open Text

/-! ## Percentages -/

/-- The value is a numeral, with a percent sign behind it or nothing, and its number, of so many
units, lies between 0 and 100; only zero may have a minus sign. -/
structure IsPercent (value : Text) (negative : Bool) (units : Nat) : Prop where
  literal : ∃ n rest, Numeral.read? (trim value) = some (n, rest) ∧ (rest = [] ∨ rest = "%") ∧
    n.value = .finite negative units
  le : units ≤ 100 * Binary64.unitsPerOne
  sign : negative → units = 0

/-- A whole number as its digits, any other as its decimal text and a percent sign in brackets. -/
def percentText (units : Nat) : Text :=
  if Binary64.unitsPerOne ∣ units then Nat.toDigits 10 (units / Binary64.unitsPerOne)
  else "[" ++ (Binary64.finite false units).spelled ++ "%]"

namespace Measure

theorem ofSuffix?_eq_none_unit_iff {t : Text} : ofSuffix? t = some none ↔ t = [] :=
  ofSuffix?_eq_some_iff.trans List.map_eq_nil_iff

theorem lower_eq_percent_iff {t : Text} : lower t = "%" ↔ t = "%" := by
  show lower t = ['%'] ↔ t = ['%']
  constructor
  · intro h
    obtain ⟨c, rfl, hc⟩ := List.map_eq_singleton_iff.1 h
    rcases toLower_cases c with same | ⟨capital, -, shifted⟩
    · rw [← same, hc]
    · have code : c.toLower.toNat = 37 := congrArg Char.toNat hc
      omega
  · rintro rfl
    rfl

theorem ofSuffix?_eq_percent_iff {t : Text} : ofSuffix? t = some (some .percent) ↔ t = "%" :=
  ofSuffix?_eq_some_iff.trans lower_eq_percent_iff

end Measure

namespace Binary64

/-- A number from 0 to 100. -/
theorem between_iff {x : Binary64} : ¬ (x.isNegative || !x.absLe 100) ↔
    ∃ negative units, x = .finite negative units ∧ units ≤ 100 * unitsPerOne ∧
      (negative → units = 0) := by
  cases x with
  | finite s u =>
    constructor
    · intro h
      rw [Bool.or_eq_true, not_or, Bool.not_eq_true, Bool.not_eq_true', Bool.not_eq_false] at h
      obtain ⟨sign, le⟩ := h
      refine ⟨s, u, rfl, by simpa [absLe] using le, fun hs => ?_⟩
      simpa [isNegative, hs] using sign
    · rintro ⟨s', u', same, le, sign⟩
      obtain ⟨rfl, rfl⟩ : s = s' ∧ u = u' := by simpa using same
      have nonneg : isNegative (.finite s u) = false := by
        cases s with
        | false => rfl
        | true => simp [isNegative, sign rfl]
      simp [nonneg, absLe, le]
  | infinite s => simp [isNegative, absLe]
  | nan => simp [isNegative, absLe]

/-- A number from 0 to 100 is spelled by its digits if it is whole. -/
theorem spelled_of_dvd {negative : Bool} {units : Nat} (le : units ≤ 100 * unitsPerOne)
    (sign : negative → units = 0) (whole : unitsPerOne ∣ units) :
    (finite negative units).spelled = Nat.toDigits 10 (units / unitsPerOne) := by
  have one := unitsPerOne_pos
  obtain ⟨n, hn⟩ := whole
  rw [Nat.mul_comm] at hn
  rw [hn] at le sign ⊢
  have small : n ≤ 100 := Nat.le_of_mul_le_mul_right le one
  have plain : (negative && n != 0) = false := by
    cases negative with
    | false => rfl
    | true =>
      have zero : n = 0 := (Nat.mul_eq_zero.1 (sign rfl)).resolve_right one.ne'
      rw [zero]
      rfl
  rw [spelled_whole negative (Nat.lt_of_le_of_lt small (by decide)), plain, Nat.mul_div_cancel n one]
  rfl

end Binary64

namespace Quantity

/-- A quantity without a unit or in percent is a numeral with nothing or a percent sign behind it. -/
theorem ofText?_eq_some_iff_of_percent {t : Text} {x : Binary64} :
    (∃ q, ofText? t = some q ∧ ¬ (q.unit = some .px ∨ q.unit = some .deg) ∧ q.magnitude = x) ↔
      ∃ n rest, Numeral.read? (trim t) = some (n, rest) ∧ (rest = [] ∨ rest = "%") ∧
        n.value = x := by
  constructor
  · rintro ⟨q, hq, hunit, rfl⟩
    obtain ⟨n, rest, hn, hrest, hvalue⟩ := exists_numeral hq
    refine ⟨n, rest, hn, ?_, hvalue.symm⟩
    match hu : q.unit with
    | none => exact .inl (Measure.ofSuffix?_eq_none_unit_iff.1 (hu ▸ hrest))
    | some .percent => exact .inr (Measure.ofSuffix?_eq_percent_iff.1 (hu ▸ hrest))
    | some .px => exact absurd (.inl hu) hunit
    | some .deg => exact absurd (.inr hu) hunit
  · rintro ⟨n, rest, hn, hrest, rfl⟩
    rcases hrest with rfl | rfl
    · refine ⟨⟨n.value, none⟩, ?_, fun h => h.elim nofun nofun, by dsimp only⟩
      exact ofText?_of_read? hn (Measure.ofSuffix?_eq_none_unit_iff.2 rfl)
    · refine ⟨⟨n.value, some .percent⟩, ?_, fun h => h.elim nofun nofun, by dsimp only⟩
      exact ofText?_of_read? hn (Measure.ofSuffix?_eq_percent_iff.2 rfl)

end Quantity

/-- A number from 0 to 100 is shown as a percentage is. -/
theorem percentText_eq {negative : Bool} {units : Nat} (le : units ≤ 100 * Binary64.unitsPerOne)
    (sign : negative → units = 0) :
    (if (Binary64.finite negative units).isWhole then (Binary64.finite negative units).spelled
      else Fragment.inPercent (.finite negative units)) = percentText units := by
  have whole_iff : (Binary64.finite negative units).isWhole ↔ Binary64.unitsPerOne ∣ units := by
    rw [Nat.dvd_iff_mod_eq_zero]
    exact beq_iff_eq
  unfold percentText
  by_cases whole : Binary64.unitsPerOne ∣ units
  · rw [if_pos whole, if_pos (whole_iff.2 whole), Binary64.spelled_of_dvd le sign whole]
  · have positive : negative = false := by
      cases negative with
      | false => rfl
      | true => exact absurd (sign rfl ▸ Nat.dvd_zero _) whole
    rw [if_neg whole, if_neg (mt whole_iff.1 whole), positive]
    rfl

/-- A percentage is accepted exactly if it is a numeral from 0 to 100. -/
theorem Fragment.ofPercent?_eq_some_iff {value f : Text} : ofPercent? value = some f ↔
    ∃ negative units, IsPercent value negative units ∧ f = percentText units := by
  constructor
  · intro h
    obtain ⟨q, hq, h⟩ := Option.bind_eq_some_iff.1 h
    by_cases unit : q.unit = some .px ∨ q.unit = some .deg
    · rw [if_pos unit] at h
      cases h
    · by_cases range : q.magnitude.isNegative || !q.magnitude.absLe 100
      · rw [if_neg unit, if_pos range] at h
        cases h
      · obtain ⟨negative, units, number, le, sign⟩ := Binary64.between_iff.1 range
        rw [if_neg unit, if_neg range, number, percentText_eq le sign] at h
        refine ⟨negative, units, ⟨?_, le, sign⟩, (Option.some.inj h).symm⟩
        exact Quantity.ofText?_eq_some_iff_of_percent.1 ⟨q, hq, unit, number⟩
  · rintro ⟨negative, units, ⟨literal, le, sign⟩, rfl⟩
    obtain ⟨q, hq, unit, number⟩ := Quantity.ofText?_eq_some_iff_of_percent.2 literal
    have range : ¬ (q.magnitude.isNegative || !q.magnitude.absLe 100) :=
      Binary64.between_iff.2 ⟨negative, units, number, le, sign⟩
    rw [ofPercent?, hq, Option.bind_some, if_neg unit, if_neg range, number,
      percentText_eq le sign]

/-! ## Tokens -/

/-- The value that a token gives under the key `opacity`, be it valid or not. -/
def Token.opacity? : Token → Option Text
  | .bare _ => none
  | .pair key value => if lower key = "opacity" then some value else none

/-- The opacities of entries are those of their tokens, if a token without one has no such entry. -/
theorem Token.filterMap_opacity {ε : Type} {ofToken : Token → List ε} {opacity? : ε → Option Text}
    (absent : ∀ {t : Token}, t.opacity? = none → ∀ e ∈ ofToken t, opacity? e = none)
    (given : ∀ {key value}, lower key = "opacity" →
      (ofToken (.pair key value)).filterMap opacity? = [value]) (ts : List Token) :
    (ts.flatMap ofToken).filterMap opacity? = ts.filterMap Token.opacity? := by
  have each (t : Token) : (ofToken t).filterMap opacity? = t.opacity?.toList := by
    cases h : t.opacity? with
    | none => exact List.filterMap_eq_nil_iff.2 (absent h)
    | some value =>
      cases t with
      | bare text => cases h
      | pair key value' =>
        simp only [Token.opacity?] at h
        split at h
        · next hk =>
          obtain rfl := Option.some.inj h
          exact given hk
        · cases h
  rw [List.filterMap_flatMap, List.filterMap_eq_flatMap_toList]
  exact congrArg (ts.flatMap ·) (funext each)

/-- The last valid opacity among the tokens, as it is shown. -/
def lastOpacity (ts : List Token) : Option Text :=
  ((ts.filterMap Token.opacity?).filterMap Fragment.ofPercent?).getLast?

theorem isSome_lastOpacity_iff {ts : List Token} : (lastOpacity ts).isSome ↔
    ∃ t ∈ ts, ∃ value f, t.opacity? = some value ∧ Fragment.ofPercent? value = some f := by
  rw [lastOpacity, List.getLast?_isSome]
  constructor
  · intro valid
    obtain ⟨f, hf⟩ := List.exists_mem_of_ne_nil _ valid
    obtain ⟨value, hvalue, hf⟩ := List.mem_filterMap.1 hf
    obtain ⟨t, ht, hvalue⟩ := List.mem_filterMap.1 hvalue
    exact ⟨t, ht, value, f, hvalue, hf⟩
  · rintro ⟨t, ht, value, f, hvalue, hf⟩
    exact List.ne_nil_of_mem (List.mem_filterMap.2 ⟨value, List.mem_filterMap.2 ⟨t, ht, hvalue⟩, hf⟩)

end Inspector
