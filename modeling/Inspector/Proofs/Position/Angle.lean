import Inspector.Proofs.Group
import Inspector.Proofs.Number.Spelled
import Inspector.Proofs.Position.Flags
import Inspector.Proofs.Position.Numbers
import Inspector.Proofs.Quantity
import Inspector.Proofs.Text.Solid
import Mathlib.Data.Int.ModEq

/-!
# Whole angles

A whole angle is read without rounding, and so is what is left of it when it is brought into half a
turn to either side: the one angle there that differs from it by whole turns. So a rotation by whole
degrees does what this angle says, however it is written and however many turns it has more.

    wrapped (finite negative (a * unitsPerOne)) is whole, and within half a turn     (wrapped_whole)
    WritesDegrees k text → Turn.ofText? text is the angle k, if k has 53 digits at most (ofText?_eq)
    TurnsBy k t → m ≡ k [ZMOD 360] → -180 < m → m ≤ 180 → t does what m says               (step_eq)
-/

namespace Inspector

open Text

/-! ## Whole turns -/

namespace Position.Angle

open Binary64

/-- A whole angle stays whole, and is brought into half a turn to either side. -/
theorem wrapped_whole (negative : Bool) (a : Nat) : ∃ s b,
    wrapped (.finite negative (a * unitsPerOne)) = .finite s (b * unitsPerOne) ∧
      signed s b ≡ signed negative a [ZMOD 360] ∧ -180 < signed s b ∧ signed s b ≤ 180 := by
  have one := unitsPerOne_pos
  have rest : a * unitsPerOne % (360 * unitsPerOne) = a % 360 * unitsPerOne :=
    Nat.mul_mod_mul_right unitsPerOne a 360
  have left : 360 * unitsPerOne - a % 360 * unitsPerOne = (360 - a % 360) * unitsPerOne :=
    (Nat.sub_mul _ _ _).symm
  have twice : 2 * (a % 360 * unitsPerOne) = 2 * (a % 360) * unitsPerOne := (Nat.mul_assoc ..).symm
  have bound : a % 360 < 360 := Nat.mod_lt a (by decide)
  have past (n : Nat) : 360 * unitsPerOne ≤ n * unitsPerOne ↔ 360 ≤ n :=
    Nat.mul_le_mul_right_iff one
  have past' (n : Nat) : 360 * unitsPerOne < n * unitsPerOne ↔ 360 < n := Nat.mul_lt_mul_right one
  unfold wrapped Int.ModEq
  dsimp only
  rw [rest, left, twice]
  cases negative with
  | true =>
    rw [if_pos rfl]
    by_cases half : 360 ≤ 2 * (a % 360)
    · refine ⟨false, 360 - a % 360, if_pos ((past _).2 half), ?_⟩
      rw [signed_true, signed_false]
      omega
    · refine ⟨true, a % 360, if_neg (mt (past _).1 half), ?_⟩
      rw [signed_true, signed_true]
      omega
  | false =>
    rw [if_neg Bool.false_ne_true]
    by_cases half : 360 < 2 * (a % 360)
    · refine ⟨true, 360 - a % 360, if_pos ((past' _).2 half), ?_⟩
      rw [signed_true, signed_false]
      omega
    · refine ⟨false, a % 360, if_neg (mt (past' _).1 half), ?_⟩
      rw [signed_false, signed_false]
      omega

/-- Every whole angle has one place within half a turn to either side. -/
theorem exists_unique_wrapped (k : ℤ) : ∃! m : ℤ, m ≡ k [ZMOD 360] ∧ -180 < m ∧ m ≤ 180 := by
  unfold Int.ModEq
  by_cases past : 180 < k % 360
  · refine ⟨k % 360 - 360, by omega, ?_⟩
    rintro m ⟨same, low, high⟩
    omega
  · refine ⟨k % 360, by omega, ?_⟩
    rintro m ⟨same, low, high⟩
    omega

/-- The class of a rotation by `m` degrees: some angles have a name of their own. -/
def classOfDegrees (m : ℤ) : Text :=
  if m.natAbs ∈ [1, 2, 3, 6, 12, 45, 90, 180] then
    (if m < 0 then ['-'] else []) ++ "rotate-" ++ Nat.toDigits 10 m.natAbs
  else "rotate-[" ++ integerText m ++ "deg]"

/-- The class of a whole angle that is brought into half a turn to either side. -/
theorem class?_whole {degrees : Binary64} {s : Bool} {b : Nat}
    (h : wrapped degrees = .finite s (b * unitsPerOne)) (small : b ≤ 180) :
    class? degrees = if signed s b = 0 then none else some (classOfDegrees (signed s b)) := by
  have one := unitsPerOne_pos
  have whole : isWhole (.finite s (b * unitsPerOne)) = true := by simp [isWhole]
  have quotient : b * unitsPerOne / unitsPerOne = b := Nat.mul_div_cancel b one
  cases b with
  | zero =>
    rw [if_pos (by cases s <;> rfl), class?, h]
    simp [isZero]
  | succ b =>
    have positive : signed s (b + 1) ≠ 0 := by
      rw [← Int.natAbs_ne_zero, natAbs_signed]
      exact Nat.succ_ne_zero b
    have below : signed s (b + 1) < 0 ↔ s := by
      cases s with
      | true => exact iff_of_true (by rw [signed_true]; omega) rfl
      | false => exact iff_of_false (by rw [signed_false]; omega) Bool.false_ne_true
    have nonzero : isZero (.finite s ((b + 1) * unitsPerOne)) = false := by
      simp [isZero, one.ne']
    have spelled : (finite s ((b + 1) * unitsPerOne)).spelled = integerText (signed s (b + 1)) := by
      rw [spelled_whole s (Nat.lt_of_le_of_lt small (by decide)), integerText, natAbs_signed,
        signText]
      simp [below]
    rw [if_neg positive, class?, h]
    dsimp only
    rw [nonzero, if_neg Bool.false_ne_true, whole, quotient, Bool.true_and,
      classOfDegrees, natAbs_signed, spelled]
    by_cases own : b + 1 ∈ [1, 2, 3, 6, 12, 45, 90, 180]
    · have step : steps.contains (b + 1) := List.contains_iff_mem.2 own
      rw [if_pos step, if_pos own]
      simp only [below]
    · have noStep : ¬ steps.contains (b + 1) := mt List.contains_iff_mem.1 own
      rw [if_neg noStep, if_neg own]

/-- What is left of an angle of so many degrees, which may be a multiple of whole turns more. -/
theorem class?_of_modEq (negative : Bool) (a : Nat) {m : ℤ}
    (turns : m ≡ signed negative a [ZMOD 360]) (low : -180 < m) (high : m ≤ 180) :
    class? (.finite negative (a * unitsPerOne)) =
      if m = 0 then none else some (classOfDegrees m) := by
  obtain ⟨s, b, h, turns', low', high'⟩ := wrapped_whole negative a
  have same : m = signed s b := by
    unfold Int.ModEq at turns turns'
    omega
  have small : b ≤ 180 := by
    have := natAbs_signed s b
    omega
  rw [same, class?_whole h small]

end Position.Angle

/-! ## Texts -/

namespace Position

/-- The text writes so many degrees, in any case: a numeral of this whole number, with or without `r-`
before it and `deg` behind it. -/
structure WritesDegrees (k : ℤ) (text : Text) : Prop where
  written : ∃ lead ∈ ["".toList, "r-".toList], ∃ unit ∈ ["".toList, "deg".toList],
    ∃ (n : Numeral) (point : Bool), n.IsDigits ∧ (point = false → n.fraction = []) ∧ n.decimal = k ∧
      lower (trim text) = lead ++ n.written point ++ unit

namespace WritesDegrees

variable {k : ℤ} {text : Text} (h : WritesDegrees k text)

include h

/-- All characters are those of a numeral and of what may stand around it. -/
theorem char_of_mem {c : Char} (hc : c ∈ lower (trim text)) :
    c = '-' ∨ c = '.' ∨ c.isDigit ∨ c ∈ "rdeg".toList := by
  obtain ⟨lead, hlead, unit, hunit, n, point, digits, -, -, ht⟩ := h.written
  have leads : ∀ t ∈ ["".toList, "r-".toList], t.all fun c => c = '-' ∨ c ∈ "rdeg".toList := by
    decide
  have units : ∀ t ∈ ["".toList, "deg".toList], t.all (· ∈ "rdeg".toList) := by decide
  rw [ht, List.mem_append, List.mem_append] at hc
  rcases hc with (front | numeral) | back
  · rcases of_decide_eq_true (List.all_eq_true.1 (leads lead hlead) c front) with minus | letter
    · exact .inl minus
    · exact .inr (.inr (.inr letter))
  · rcases Numeral.mem_written digits numeral with minus | dot | digit
    · exact .inl minus
    · exact .inr (.inl dot)
    · exact .inr (.inr (.inl digit))
  · have letter := of_decide_eq_true (List.all_eq_true.1 (units unit hunit) c back)
    exact .inr (.inr (.inr letter))

/-- A text with a digit is none of the words. -/
theorem lower_ne {word : Text} (digitless : word.all (!·.isDigit)) :
    lower (trim text) ≠ word := by
  obtain ⟨lead, -, unit, -, n, point, digits, noPoint, -, ht⟩ := h.written
  obtain ⟨c, hc, digit⟩ := Numeral.exists_digit digits noPoint
  have inside : c ∈ lower (trim text) := by
    rw [ht, List.mem_append, List.mem_append]
    exact .inl (.inr hc)
  rintro rfl
  have noDigit := List.all_eq_true.1 digitless c inside
  rw [digit] at noDigit
  cases noDigit

theorem lower_ne_of_trimmed {word : Text} (digitless : word.all (!·.isDigit))
    (trimmed : trim word = word) : lower text ≠ word := by
  intro same
  refine h.lower_ne digitless ?_
  rw [← trim_lower, same, trimmed]

theorem strip?_eq_none : Group.strip? text = none := by
  refine Group.strip?_eq_none_of_not_mem fun c hc bracket => ?_
  have each : Group.brackets.all fun c => c.toLower = c ∧
      ¬ (c = '-' ∨ c = '.' ∨ c.isDigit ∨ c ∈ "rdeg".toList) := by decide
  obtain ⟨same, other⟩ := of_decide_eq_true (List.all_eq_true.1 each c bracket)
  have inside : c ∈ lower (trim text) := same ▸ List.mem_map_of_mem hc
  exact other (h.char_of_mem inside)

/-- Behind `r-`, if it is there, the angle is left. -/
theorem exists_literal : ∃ (n : Numeral) (unit : Option Measure), n.decimal = k ∧
    (unit = none ∨ unit = some .deg) ∧ IsWritten (trim (angleLiteral text)) n unit := by
  obtain ⟨lead, hlead, unit, hunit, n, point, digits, noPoint, whole, ht⟩ := h.written
  have literal : angleLiteral text = n.written point ++ unit := by
    have front : lead = [] ∨ lead = "r-" := by simpa using hlead
    rw [angleLiteral, ht]
    rcases front with rfl | rfl
    · have noLead : after? "r-" (n.written point ++ unit) = none := by
        obtain ⟨c, hc, -⟩ := Numeral.exists_digit digits noPoint
        cases hw : n.written point with
        | nil =>
          rw [hw] at hc
          cases hc
        | cons d rest =>
          have other : ¬ 'r' = d := by
            rintro rfl
            exact absurd (Numeral.mem_written digits (hw ▸ List.mem_cons_self)) (by decide)
          exact if_neg other
      rw [List.nil_append, noLead]
      rfl
    · rfl
  have solid : IsSolid (n.written point ++ unit) := by
    have units : ∀ t ∈ ["".toList, "deg".toList], IsSolid t := by decide
    refine isSolid_append.2 ⟨fun c hc => ?_, units unit hunit⟩
    rcases Numeral.mem_written digits hc with rfl | rfl | digit
    · decide
    · decide
    · exact not_isBlank_of_isDigit digit
  have back : unit = [] ∨ unit = "deg" := by simpa using hunit
  rw [literal, solid.trim_eq]
  rcases back with rfl | rfl
  · exact ⟨n, none, whole, .inl rfl, digits, point, [], noPoint, rfl, rfl⟩
  · exact ⟨n, some .deg, whole, .inr rfl, digits, point, "deg", noPoint, rfl, rfl⟩

/-- The text is read as the angle that it writes, not rounded. -/
theorem ofText?_eq (small : |k| ≤ 2 ^ 53) : ∃ negative, signed negative k.natAbs = k ∧
    Turn.ofText? text = some (.angle (.finite negative (k.natAbs * Binary64.unitsPerOne))) := by
  obtain ⟨n, unit, whole, degrees, written⟩ := h.exists_literal
  refine ⟨n.negative, (Numeral.eq_signed_of_decimal whole).1, ?_⟩
  have upright : lower (trim text) ≠ "none" := h.lower_ne (by decide)
  have flipX : ¬ (lower (trim text) = "flip-h" ∨ lower (trim text) = "flip-x" ∨
      lower (trim text) = "mirror-h" ∨ lower (trim text) = "horizontal") := by
    simp only [not_or]
    exact ⟨h.lower_ne (by decide), h.lower_ne (by decide), h.lower_ne (by decide),
      h.lower_ne (by decide)⟩
  have flipY : ¬ (lower (trim text) = "flip-v" ∨ lower (trim text) = "flip-y" ∨
      lower (trim text) = "mirror-v" ∨ lower (trim text) = "vertical") := by
    simp only [not_or]
    exact ⟨h.lower_ne (by decide), h.lower_ne (by decide), h.lower_ne (by decide),
      h.lower_ne (by decide)⟩
  have read : Quantity.ofText? (angleLiteral text) = some ⟨n.value, unit⟩ :=
    Quantity.ofText?_of_isWritten written
  unfold Turn.ofText?
  dsimp only
  rw [if_neg upright, if_neg flipX, if_neg flipY]
  show (Quantity.ofText? (angleLiteral text)).bind _ = _
  rw [read, Option.bind_some, if_pos degrees, Numeral.value_of_decimal whole small]

end WritesDegrees

/-! ## Tokens -/

/-- The token asks for a rotation by so many degrees. -/
inductive TurnsBy (k : ℤ) : Token → Prop where
  | bare {text : Text} (h : WritesDegrees k text) : TurnsBy k (.bare text)
  | pair {key text : Text} (hkey : lower key = "rotation" ∨ lower key = "rotate")
    (h : WritesDegrees k text) : TurnsBy k (.pair key text)

namespace TurnsBy

variable {k : ℤ} {t : Token} (h : TurnsBy k t)

include h

theorem isFlag_eq : isFlag t = false := by
  cases h with
  | @bare text h =>
    have ignore : lower text ≠ "ignore-auto-layout" :=
      h.lower_ne_of_trimmed (by decide) (by decide)
    have short : lower text ≠ "ignore-layout" :=
      h.lower_ne_of_trimmed (by decide) (by decide)
    have detached : lower text ≠ "detached" :=
      h.lower_ne_of_trimmed (by decide) (by decide)
    simp only [isFlag, isFlagKey, ignore, short, detached, decide_false, Bool.or_self]
  | pair hkey _ =>
    rw [isFlag]
    rcases hkey with hk | hk
    · rw [hk]
      decide
    · rw [hk]
      decide

theorem exists_entry (small : |k| ≤ 2 ^ 53) : ∃ negative text, signed negative k.natAbs = k ∧
    Turn.ofText? text = some (.angle (.finite negative (k.natAbs * Binary64.unitsPerOne))) ∧
      Entry.ofToken t = .rotation [.bare text] := by
  have noFlag := h.isFlag_eq
  cases h with
  | @bare text h =>
    obtain ⟨negative, sign, turn⟩ := h.ofText?_eq small
    have left : lower text ≠ "left" :=
      h.lower_ne_of_trimmed (by decide) (by decide)
    have right : lower text ≠ "right" :=
      h.lower_ne_of_trimmed (by decide) (by decide)
    have top : lower text ≠ "top" :=
      h.lower_ne_of_trimmed (by decide) (by decide)
    have bottom : lower text ≠ "bottom" :=
      h.lower_ne_of_trimmed (by decide) (by decide)
    have noEdge : isEdge (lower text) = false := by
      simp only [isEdge, left, right, top, bottom, decide_false, Bool.or_self]
    refine ⟨negative, text, sign, turn, ?_⟩
    rw [isFlag] at noFlag
    rw [Entry.ofToken, Entry.ofBare, noFlag, noEdge, turn]
    rfl
  | @pair key text hkey h =>
    obtain ⟨negative, sign, turn⟩ := h.ofText?_eq small
    refine ⟨negative, text, sign, turn, ?_⟩
    rw [isFlag] at noFlag
    rw [Entry.ofToken, Entry.ofPair, noFlag, if_neg Bool.false_ne_true, if_pos hkey,
      Entry.rotationItems_of_plain h.strip?_eq_none]

/-- A whole angle is brought into half a turn to either side; there, no angle is no rotation. -/
theorem step_eq (small : |k| ≤ 2 ^ 53) {m : ℤ} (turns : m ≡ k [ZMOD 360]) (low : -180 < m)
    (high : m ≤ 180) (s : State) : s.step t = { s with
      rotationSeen := true
      draft := if m = 0 then s.draft.erase .rotate
        else s.draft.put .rotate [Angle.classOfDegrees m] (.superseded .rotation) } := by
  obtain ⟨negative, text, sign, turn, entry⟩ := h.exists_entry small
  have cls := Angle.class?_of_modEq negative k.natAbs (sign.symm ▸ turns) low high
  rw [State.step, entry, State.apply, List.foldl_cons, List.foldl_nil, State.setRotationItem, turn]
  dsimp only
  rw [State.setTurn, cls]
  by_cases zero : m = 0
  · simp [zero]
  · simp [zero]

/-- Rotations by angles that differ by whole turns do the same. -/
theorem step_congr {k' : ℤ} {t' : Token} (h' : TurnsBy k' t') (small : |k| ≤ 2 ^ 53)
    (small' : |k'| ≤ 2 ^ 53) (turns : k' ≡ k [ZMOD 360]) (s : State) : s.step t' = s.step t := by
  obtain ⟨m, ⟨same, low, high⟩, -⟩ := Angle.exists_unique_wrapped k
  rw [h.step_eq small same low high, h'.step_eq small' (same.trans turns.symm) low high]

end TurnsBy

theorem reading_of_turnsBy {k k' : ℤ} {t t' : Token} (h : TurnsBy k t) (h' : TurnsBy k' t')
    (step : ∀ s : State, s.step t' = s.step t) (xs ys : List Token) :
    reading (xs ++ t' :: ys) = reading (xs ++ t :: ys) := by
  have flags : flagged (xs ++ t' :: ys) = flagged (xs ++ t :: ys) := by
    rw [flagged, flagged, List.foldl_append, List.foldl_append, List.foldl_cons, List.foldl_cons,
      State.readFlag_of_not_isFlag _ h.isFlag_eq, State.readFlag_of_not_isFlag _ h'.isFlag_eq]
  have runs : run (xs ++ t' :: ys) = run (xs ++ t :: ys) := by
    show (xs ++ t' :: ys).foldl State.step (flagged _) =
      (xs ++ t :: ys).foldl State.step (flagged _)
    rw [flags, List.foldl_append, List.foldl_append, List.foldl_cons, List.foldl_cons, step]
  rw [reading, reading, runs]

/-- A rotation by whole degrees clears the rotation if they come to whole turns, and otherwise gives
it the one class of the angle that is left; whole turns more make no difference to a position. -/
theorem rotation_normal_form {k k' : ℤ} {t t' : Token} (h : TurnsBy k t) (h' : TurnsBy k' t')
    (small : |k| ≤ 2 ^ 53) (small' : |k'| ≤ 2 ^ 53) :
    (∃! m : ℤ, m ≡ k [ZMOD 360] ∧ -180 < m ∧ m ≤ 180) ∧
    (∀ m : ℤ, m ≡ k [ZMOD 360] → -180 < m → m ≤ 180 → ∀ s : State, s.step t = { s with
      rotationSeen := true
      draft := if m = 0 then s.draft.erase .rotate
        else s.draft.put .rotate [Angle.classOfDegrees m] (.superseded .rotation) }) ∧
    (k' ≡ k [ZMOD 360] → (∀ s : State, s.step t' = s.step t) ∧
      ∀ xs ys, reading (xs ++ t' :: ys) = reading (xs ++ t :: ys)) := by
  refine ⟨Angle.exists_unique_wrapped k,
    fun m turns low high s => h.step_eq small turns low high s, fun turns => ?_⟩
  have step := h.step_congr h' small small' turns
  exact ⟨step, reading_of_turnsBy h h' step⟩

theorem quarter_turn_normal_form : TurnsBy 450 (.bare "R-450deg") ∧
    TurnsBy (-270) (.pair "rotate" "-0270") ∧ |(450 : ℤ)| ≤ 2 ^ 53 ∧ |(-270 : ℤ)| ≤ 2 ^ 53 ∧
    ∀ xs ys, reading (xs ++ .pair "rotate" "-0270" :: ys) =
      reading (xs ++ .bare "R-450deg" :: ys) := by
  have plus : Numeral.decimal ⟨false, "450", []⟩ = ((450 : ℤ) : ℚ) := by
    have digits : Numeral.coefficient ⟨false, "450", []⟩ = 450 := by decide
    rw [Numeral.decimal, digits]
    simp [Binary64.sign]
  have minus : Numeral.decimal ⟨true, "0270", []⟩ = ((-270 : ℤ) : ℚ) := by
    have digits : Numeral.coefficient ⟨true, "0270", []⟩ = 270 := by decide
    rw [Numeral.decimal, digits]
    simp [Binary64.sign]
  have above : TurnsBy 450 (.bare "R-450deg") :=
    .bare ⟨_, by decide, "deg", by decide, _, false, ⟨rfl, rfl, by decide⟩, fun _ => rfl, plus,
      (by decide : _ = "r-".toList ++ _ ++ _)⟩
  have below : TurnsBy (-270) (.pair "rotate" "-0270") :=
    .pair (.inr rfl) ⟨[], by decide, [], by decide, _, false, ⟨rfl, rfl, by decide⟩, fun _ => rfl,
      minus, by decide⟩
  exact ⟨above, below, by decide, by decide,
    ((rotation_normal_form above below (by decide) (by decide)).2.2 (by decide)).2⟩

end Position

end Inspector
