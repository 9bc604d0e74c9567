import Inspector.Fragment
import Inspector.Proofs.Text.Solid

/-!
# Fragments have no blanks

Whatever a value was written like, its fragment is solid: a number is spelled anew, in digits, and
a size that is passed through is a keyword, a fraction of digits, or bracketed text whose blanks
would have had it refused.

    IsSolid x.spelled                                                            (solid_spelled)
    ofSize? value = some f → IsSolid f                                             (solid_ofSize?)
-/

namespace Inspector

open Text

/-! ## Numbers -/

theorem Decimal.solid_digits (d : Decimal) : IsSolid d.digits := isSolid_toDigits d.coefficient

theorem Text.isSolid_zeros (n : Nat) : IsSolid (List.replicate n '0') := by
  intro c hc
  rw [List.eq_of_mem_replicate hc]
  decide

theorem Decimal.solid_positional (d : Decimal) : IsSolid d.positional := by
  have digits := d.solid_digits
  unfold positional
  dsimp only
  split
  · exact isSolid_append.2 ⟨digits, isSolid_zeros _⟩
  · split
    · exact isSolid_append.2 ⟨isSolid_append.2 ⟨by decide, isSolid_zeros _⟩, digits⟩
    · refine isSolid_append.2 ⟨isSolid_append.2 ⟨?_, by decide⟩, ?_⟩
      · exact digits.subset (List.take_subset _ _)
      · exact digits.subset (List.drop_subset _ _)

namespace Binary64

theorem solid_signText (negative : Bool) : IsSolid (signText negative) := by
  cases negative <;> decide

theorem solid_text (x : Binary64) : IsSolid x.text := by
  cases x with
  | nan => decide
  | infinite s => exact isSolid_append.2 ⟨solid_signText s, by decide⟩
  | finite s u =>
    refine isSolid_append.2 ⟨solid_signText s, ?_⟩
    split
    · decide
    · exact Decimal.solid_positional _

theorem solid_spelled (x : Binary64) : IsSolid x.spelled := by
  unfold spelled
  split
  · next s u =>
    split
    · exact isSolid_append.2 ⟨solid_signText _, isSolid_toDigits _⟩
    · exact solid_text _
  · exact solid_text _

end Binary64

namespace Fragment

/-! ## Lengths and percentages -/

theorem solid_inPixels (x : Binary64) : IsSolid (inPixels x) :=
  isSolid_append.2 ⟨isSolid_append.2 ⟨by decide, x.solid_spelled⟩, by decide⟩

theorem solid_inPercent (x : Binary64) : IsSolid (inPercent x) :=
  isSolid_append.2 ⟨isSolid_append.2 ⟨by decide, x.solid_spelled⟩, by decide⟩

theorem solid_ofExtent? {value f : Text} (h : ofExtent? value = some f) : IsSolid f := by
  obtain ⟨px, -, rfl⟩ := Option.map_eq_some_iff.1 (Option.eq_some_of_filter_eq_some h)
  exact solid_inPixels px

theorem solid_ofLength? {value f : Text} (h : ofLength? value = some f) : IsSolid f := by
  obtain ⟨q, -, h⟩ := Option.bind_eq_some_iff.1 h
  split at h
  · exact Option.some.inj h ▸ solid_inPixels _
  · exact Option.some.inj h ▸ solid_inPixels _
  · exact Option.some.inj h ▸ solid_inPercent _
  · cases h

theorem solid_ofPercent? {value f : Text} (h : ofPercent? value = some f) : IsSolid f := by
  obtain ⟨q, -, h⟩ := Option.bind_eq_some_iff.1 h
  split_ifs at h
  · exact Option.some.inj h ▸ Binary64.solid_spelled _
  · exact Option.some.inj h ▸ solid_inPercent _

/-! ## Sizes -/

theorem solid_of_isCount {t : Text} (h : isCount t) : IsSolid t := by
  unfold isCount at h
  rw [Bool.and_eq_true] at h
  exact isSolid_of_all (fun _ => not_isBlank_of_isDigit) h.1

theorem solid_of_isFraction {value : Text} (h : isFraction value) : IsSolid value := by
  unfold isFraction at h
  split at h
  · next a b hab =>
    rw [Bool.and_eq_true] at h
    have joined : ['/'].intercalate (value.splitOn '/') = value := List.intercalate_splitOn '/'
    rw [hab, List.intercalate_cons_cons, List.intercalate_singleton] at joined
    rw [← joined]
    exact isSolid_append.2
      ⟨isSolid_append.2 ⟨solid_of_isCount h.1, by decide⟩, solid_of_isCount h.2⟩
  · cases h

theorem solid_of_isBracketed {value : Text} (h : isBracketed value) : IsSolid value := by
  unfold isBracketed at h
  split at h
  · next rest =>
    simp only [Bool.and_eq_true, beq_iff_eq, decide_eq_true_eq] at h
    obtain ⟨⟨last, -⟩, inner⟩ := h
    have ends : rest.dropLast ++ [']'] = rest := List.dropLast_append_getLast? ']' last
    rw [← ends]
    refine isSolid_cons.2 ⟨by decide, isSolid_append.2 ⟨isSolid_of_all ?_ inner, by decide⟩⟩
    intro c hc
    simpa using (Bool.and_eq_true_iff.1 hc).2
  · cases h

theorem solid_of_isPassThrough {value : Text} (h : isPassThrough value) : IsSolid value := by
  unfold isPassThrough at h
  rcases (Bool.or_eq_true _ _).mp h with word | bracketed
  · have each : ∀ w ∈ sizeWords, IsSolid w := by decide
    exact each value (List.contains_iff_mem.1 word)
  · exact solid_of_isBracketed bracketed

theorem solid_ofSize? {value f : Text} (h : ofSize? value = some f) : IsSolid f := by
  unfold ofSize? at h
  split at h
  · exact Option.some.inj h ▸ (by decide)
  · split at h
    · exact Option.some.inj h ▸ (by decide)
    · split at h
      · next fragment hf =>
        obtain rfl := Option.some.inj h
        exact solid_ofLength? (Option.eq_some_of_filter_eq_some hf)
      · split at h
        · next passed =>
          obtain rfl := Option.some.inj h
          rcases (Bool.or_eq_true _ _).mp passed with fraction | word
          · exact solid_of_isFraction fraction
          · exact solid_of_isPassThrough word
        · cases h

end Fragment

end Inspector
