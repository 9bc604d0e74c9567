import Inspector.Fragment
import Inspector.Proofs.Number.Spelled
import Inspector.Proofs.Text

/-!
# Classes built from numbers

A class shows the number of the literal it is built from behind a lead, as it is or in square
brackets with a unit. The number is a decimal numeral exactly if the literal is less than the
midpoint from which on numbers overflow. Percentages are bounded, so theirs always are.

    ofLength? literal = some f → Built lead literal (lead ++ f)                 (built_ofLength?)
    ofPercent? literal = some f → Fits literal ∧ Built lead literal (lead ++ f)
                                                                                (built_ofPercent?)
    ofSize? literal = some f → Quantity.ofText? literal = none ∨ Built lead literal (lead ++ f)
                                                                                   (built_ofSize?)
-/

namespace Inspector

open Text

/-- A class with a number behind its lead. -/
inductive Shows (lead number : Text) : Text → Prop where
  | plain : Shows lead number (lead ++ number)
  | bracketed (unit : Measure) : Shows lead number (lead ++ ("[" ++ number ++ unit.spelling ++ "]"))

/-- The numeral of a literal is less than the midpoint from which on numbers overflow. -/
def Fits (literal : Text) : Prop :=
  ∃ n rest, Numeral.read? (trim literal) = some (n, rest) ∧
    n.coefficient < Binary64.overflow * 10 ^ n.fraction.length

theorem Quantity.isFinite_iff_fits {literal : Text} {q : Quantity} (h : ofText? literal = some q) :
    q.magnitude.isFinite ↔ Fits literal := by
  obtain ⟨n, rest, hn, -, magnitude⟩ := exists_numeral h
  rw [magnitude, n.isFinite_value_iff]
  constructor
  · intro small
    exact ⟨n, rest, hn, small⟩
  · rintro ⟨n', rest', hn', small⟩
    obtain ⟨rfl, -⟩ := Prod.mk.inj (Option.some.inj (hn'.symm.trans hn))
    exact small

/-- The class is built from the number of the literal, which is a numeral if the literal fits, and a
word if it does not. -/
structure Built (lead literal c : Text) : Prop where
  accepted : (Quantity.ofText? literal).isSome
  shown : ∃ number, Shows lead number c ∧ (Fits literal → IsNumeral number) ∧
    (¬ Fits literal → number ∈ Binary64.overflowWords)

namespace Built

variable {lead literal c : Text} {q : Quantity}

theorem of_spelled (h : Quantity.ofText? literal = some q) {x : Binary64}
    (finite : x.isFinite = q.magnitude.isFinite) (shown : Shows lead x.spelled c) :
    Built lead literal c := by
  have fits := Quantity.isFinite_iff_fits h
  rw [← finite] at fits
  exact ⟨Option.isSome_iff_exists.2 ⟨q, h⟩, x.spelled, shown,
    fun hf => x.isNumeral_spelled_iff.2 (fits.2 hf),
    fun hf => Binary64.spelled_mem_overflowWords (Bool.eq_false_iff.2 fun hx => hf (fits.1 hx))⟩

theorem of_numeral (h : Quantity.ofText? literal = some q) (finite : q.magnitude.isFinite)
    {number : Text} (numeral : IsNumeral number) (shown : Shows lead number c) :
    Built lead literal c :=
  ⟨Option.isSome_iff_exists.2 ⟨q, h⟩, number, shown, fun _ => numeral,
    fun hf => absurd ((Quantity.isFinite_iff_fits h).1 finite) hf⟩

end Built

namespace Fragment

variable {literal f : Text} (lead : Text)

theorem shows_inPixels (x : Binary64) : Shows lead x.spelled (lead ++ inPixels x) := by
  have spelled : inPixels x = "[" ++ x.spelled ++ Measure.px.spelling ++ "]" := by
    simp [inPixels, Measure.spelling]
  rw [spelled]
  exact .bracketed .px

theorem shows_inPercent (x : Binary64) : Shows lead x.spelled (lead ++ inPercent x) := by
  have spelled : inPercent x = "[" ++ x.spelled ++ Measure.percent.spelling ++ "]" := by
    simp [inPercent, Measure.spelling]
  rw [spelled]
  exact .bracketed .percent

theorem exists_of_pixels? {x : Binary64} (h : pixels? literal = some x) :
    ∃ q, Quantity.ofText? literal = some q ∧ q.magnitude = x := by
  obtain ⟨q, hq, rfl⟩ := Option.map_eq_some_iff.1 h
  exact ⟨q, Option.eq_some_of_filter_eq_some hq, rfl⟩

theorem built_ofExtent? (h : ofExtent? literal = some f) : Built lead literal (lead ++ f) := by
  obtain ⟨x, hx, rfl⟩ := Option.map_eq_some_iff.1 (Option.eq_some_of_filter_eq_some h)
  obtain ⟨q, hq, rfl⟩ := exists_of_pixels? hx
  exact .of_spelled hq rfl (shows_inPixels lead _)

theorem built_ofLength? (h : ofLength? literal = some f) : Built lead literal (lead ++ f) := by
  obtain ⟨q, hq, h⟩ := Option.bind_eq_some_iff.1 h
  split at h
  · exact Option.some.inj h ▸ .of_spelled hq rfl (shows_inPixels lead _)
  · exact Option.some.inj h ▸ .of_spelled hq rfl (shows_inPixels lead _)
  · exact Option.some.inj h ▸ .of_spelled hq rfl (shows_inPercent lead _)
  · cases h

theorem isFinite_of_absLe {x : Binary64} {n : Nat} (h : x.absLe n) : x.isFinite := by
  cases x with
  | finite s u => rfl
  | _ => cases h

/-- A percentage is bounded, so its literal fits. -/
theorem built_ofPercent? (h : ofPercent? literal = some f) :
    Fits literal ∧ Built lead literal (lead ++ f) := by
  obtain ⟨q, hq, h⟩ := Option.bind_eq_some_iff.1 h
  split_ifs at h with unit range whole
  all_goals
    rw [Bool.or_eq_true, not_or, Bool.not_eq_true, Bool.not_eq_true', Bool.not_eq_false] at range
    have fits := (Quantity.isFinite_iff_fits hq).1 (isFinite_of_absLe range.2)
    obtain rfl := Option.some.inj h
  · exact ⟨fits, .of_spelled hq rfl .plain⟩
  · exact ⟨fits, .of_spelled hq rfl (shows_inPercent lead _)⟩

/-! ## Sizes -/

theorem not_quantity_of_isFraction (h : isFraction literal) : Quantity.ofText? literal = none := by
  refine Quantity.ofText?_of_isStray (c := '/') (by decide) ?_
  unfold isFraction at h
  split at h
  · next a b hab =>
    have joined : ['/'].intercalate (literal.splitOn '/') = literal := List.intercalate_splitOn '/'
    rw [hab, List.intercalate_cons_cons] at joined
    rw [← joined]
    simp
  · cases h

theorem not_quantity_of_isPassThrough (h : isPassThrough literal) :
    Quantity.ofText? literal = none := by
  rcases (Bool.or_eq_true _ _).mp h with word | bracketed
  · have each : ∀ w ∈ sizeWords, Quantity.ofText? w = none := by decide
    exact each literal (List.contains_iff_mem.1 word)
  · refine Quantity.ofText?_of_isStray (c := '[') (by decide) ?_
    unfold isBracketed at bracketed
    split at bracketed
    · exact List.mem_cons_self
    · cases bracketed

theorem built_ofSize? (h : ofSize? literal = some f) :
    Quantity.ofText? literal = none ∨ Built lead literal (lead ++ f) := by
  have words : ∀ w ∈ (["fill", "hug"] : List Text), Quantity.ofText? w = none := by decide
  unfold ofSize? at h
  split at h
  · next fill =>
    exact .inl (Quantity.ofText?_of_lower_mem words (by simp [fill]))
  · split at h
    · next hug =>
      exact .inl (Quantity.ofText?_of_lower_mem words (by simp [hug]))
    · split at h
      · next fragment hf =>
        exact .inr (Option.some.inj h ▸ built_ofLength? lead (Option.eq_some_of_filter_eq_some hf))
      · split at h
        · next passed =>
          rcases (Bool.or_eq_true _ _).mp passed with fraction | word
          · exact .inl (not_quantity_of_isFraction fraction)
          · exact .inl (not_quantity_of_isPassThrough word)
        · cases h

end Fragment

end Inspector
