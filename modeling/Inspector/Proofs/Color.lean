import Inspector.Color
import Inspector.Proofs.Text.Solid

/-!
# Colors under a lead

Whatever a color was given as, its class carries the lead of the property and has no blanks.

    ofText? value lead = some c → lead ++ "-" <+: c.classFor lead                (prefix_classFor)
    ofText? value lead = some c → IsSolid (c.classFor lead)                       (solid_classFor)
    ofText? value lead = some c → (trim value).all isClassChar                (all_isClassChar)
    ofText? value lead = some c → ofText? (c.classFor lead) lead = some (.classToken (c.classFor lead))
                                                                             (ofText?_classFor)
-/

namespace Inspector.Color

open Text

theorem prefix_classFor {value lead : Text} {c : Color} (h : ofText? value lead = some c) :
    lead ++ "-".toList <+: c.classFor lead := by
  unfold ofText? at h
  dsimp only at h
  split at h
  · obtain rfl := Option.some.inj h
    exact ⟨"[".toList ++ lower (trim value) ++ "]".toList, by simp [classFor]⟩
  · split at h
    · obtain rfl := Option.some.inj h
      exact ⟨trim value, rfl⟩
    · split at h
      · obtain rfl := Option.some.inj h
        exact ⟨trim value, rfl⟩
      · split at h
        · next tail ht =>
          obtain ⟨rest, hr, htail⟩ := Option.bind_eq_some_iff.1 ht
          split at h
          · obtain rfl := Option.some.inj h
            refine ⟨tail, ?_⟩
            rw [classFor, eq_append_of_after? hr, eq_append_of_after? htail, List.append_assoc]
          · simp at h
        · simp at h

/-! ## Blanks -/

theorem solid_of_isHex {t : Text} (h : isHex t) : IsSolid t := by
  unfold isHex at h
  split at h
  · next code =>
    rw [Bool.and_eq_true] at h
    refine isSolid_cons.2 ⟨by decide, isSolid_of_all (fun c hc => ?_) h.2⟩
    simp only [isHexDigit, Bool.or_eq_true, Bool.and_eq_true, decide_eq_true_eq] at hc
    rcases hc with (digit | lower) | upper
    · exact not_isBlank_of_isDigit digit
    · exact not_isBlank_of_between (by decide) (by decide) lower.1 lower.2
    · exact not_isBlank_of_between (by decide) (by decide) upper.1 upper.2
  · cases h

theorem solid_of_isPalette {t : Text} (h : isPalette t) : IsSolid t := by
  unfold isPalette at h
  rcases (Bool.or_eq_true _ _).mp h with plain | shaded
  · have each : ∀ name ∈ Color.plain, IsSolid name := by decide
    exact each t (List.contains_iff_mem.1 plain)
  · obtain ⟨hue, hhue, shaded⟩ := List.any_eq_true.1 shaded
    obtain ⟨shade, hshade, known⟩ := (Option.any_eq_true _ _).1 shaded
    obtain ⟨rest, hrest, hshade⟩ := Option.bind_eq_some_iff.1 hshade
    have hueSolid : ∀ hue ∈ hues, IsSolid hue := by decide
    have shadeSolid : ∀ shade ∈ shades, IsSolid shade := by decide
    rw [eq_append_of_after? hrest, eq_append_of_after? hshade]
    exact isSolid_append.2 ⟨hueSolid hue hhue, isSolid_append.2
      ⟨by decide, shadeSolid shade (List.contains_iff_mem.1 known)⟩⟩

theorem not_isBlank_of_isLayerChar {c : Char} (h : isLayerChar c) : isBlank c = false := by
  simp only [isLayerChar, Bool.or_eq_true, Bool.and_eq_true, decide_eq_true_eq] at h
  rcases h with lower | digit
  · exact not_isBlank_of_between (by decide) (by decide) lower.1 lower.2
  · exact not_isBlank_of_isDigit digit

theorem solid_of_isLayer {t : Text} (h : isLayer t) : IsSolid t := by
  unfold isLayer at h
  split at h
  · next c r hr =>
    rw [Bool.and_eq_true] at h
    have rest : IsSolid r := by
      refine isSolid_of_all (fun d hd => ?_) h.2
      rcases (Bool.or_eq_true _ _).mp hd with layer | dash
      · exact not_isBlank_of_isLayerChar layer
      · rw [of_decide_eq_true dash]
        decide
    rw [eq_append_of_after? hr]
    exact isSolid_append.2 ⟨by decide, isSolid_cons.2 ⟨not_isBlank_of_isLayerChar h.1, rest⟩⟩
  · cases h

theorem not_isBlank_of_isClassChar {c : Char} (h : isClassChar c) : isBlank c = false := by
  unfold isClassChar at h
  rcases (Bool.or_eq_true _ _).mp h with alphanum | mark
  · exact not_isBlank_of_isAlphanum alphanum
  · have each : IsSolid "[]#/._%()-" := by decide
    exact each c (List.contains_iff_mem.1 mark)

theorem solid_classFor {value lead : Text} (solid : IsSolid lead) {c : Color}
    (h : ofText? value lead = some c) : IsSolid (c.classFor lead) := by
  have behind {t : Text} (ht : IsSolid t) : IsSolid (lead ++ "-" ++ t) :=
    isSolid_append.2 ⟨isSolid_append.2 ⟨solid, by decide⟩, ht⟩
  unfold ofText? at h
  dsimp only at h
  split_ifs at h with hex palette layer
  · obtain rfl := Option.some.inj h
    have code : IsSolid (lower (trim value)) := isSolid_lower (solid_of_isHex hex)
    refine isSolid_append.2 ⟨isSolid_append.2 ⟨isSolid_append.2 ⟨solid, by decide⟩, code⟩, ?_⟩
    decide
  · obtain rfl := Option.some.inj h
    exact behind (solid_of_isPalette palette)
  · obtain rfl := Option.some.inj h
    exact behind (solid_of_isLayer layer)
  · split at h
    · next tail ht =>
      obtain ⟨rest, hr, htail⟩ := Option.bind_eq_some_iff.1 ht
      split_ifs at h with chars
      obtain rfl := Option.some.inj h
      rw [Bool.and_eq_true] at chars
      have solidTail : IsSolid tail :=
        isSolid_of_all (fun _ => not_isBlank_of_isClassChar) chars.2
      rw [classFor, eq_append_of_after? hr, eq_append_of_after? htail, ← List.append_assoc]
      exact behind solidTail
    · cases h

/-! ## Characters -/

theorem isAlphanum_of_isAlpha {c : Char} (h : c.isAlpha) : c.isAlphanum :=
  (Bool.or_eq_true _ _).mpr (.inl h)

theorem isAlphanum_of_isDigit {c : Char} (h : c.isDigit) : c.isAlphanum :=
  (Bool.or_eq_true _ _).mpr (.inr h)

theorem isAlphanum_of_lower {c : Char} (ha : 'a' ≤ c) (hz : c ≤ 'z') : c.isAlphanum := by
  have low : c.isLower := (Bool.and_eq_true _ _).mpr ⟨decide_eq_true ha, decide_eq_true hz⟩
  exact isAlphanum_of_isAlpha ((Bool.or_eq_true _ _).mpr (.inr low))

theorem isAlphanum_of_isHexDigit {c : Char} (h : isHexDigit c) : c.isAlphanum := by
  simp only [isHexDigit, Bool.or_eq_true, Bool.and_eq_true, decide_eq_true_eq] at h
  rcases h with (digit | ⟨ha, hf⟩) | ⟨ha, hf⟩
  · exact isAlphanum_of_isDigit digit
  · have hz : 'f' ≤ 'z' := by decide
    exact isAlphanum_of_lower ha (Char.le_trans hf hz)
  · have hz : 'F' ≤ 'Z' := by decide
    have up : c.isUpper := decide_eq_true ⟨ha, Char.le_trans hf hz⟩
    exact isAlphanum_of_isAlpha ((Bool.or_eq_true _ _).mpr (.inl up))

theorem isClassChar_of_isAlphanum {c : Char} (h : c.isAlphanum) : isClassChar c := by
  rw [isClassChar, h, Bool.true_or]

theorem isClassChar_of_isLayerChar {c : Char} (h : isLayerChar c) : isClassChar c := by
  apply isClassChar_of_isAlphanum
  simp only [isLayerChar, Bool.or_eq_true, Bool.and_eq_true, decide_eq_true_eq] at h
  rcases h with ⟨ha, hz⟩ | digit
  · exact isAlphanum_of_lower ha hz
  · exact isAlphanum_of_isDigit digit

theorem all_isClassChar_of_isHex {t : Text} (h : isHex t) : t.all isClassChar := by
  unfold isHex at h
  split at h
  · next code =>
    rw [Bool.and_eq_true] at h
    rw [List.all_cons, Bool.and_eq_true]
    refine ⟨by decide, List.all_eq_true.2 fun c hc => ?_⟩
    exact isClassChar_of_isAlphanum (isAlphanum_of_isHexDigit (List.all_eq_true.1 h.2 c hc))
  · cases h

theorem all_isClassChar_of_isPalette {t : Text} (h : isPalette t) : t.all isClassChar := by
  unfold isPalette at h
  rcases (Bool.or_eq_true _ _).mp h with plain | shaded
  · have each : ∀ name ∈ Color.plain, name.all isClassChar := by decide
    exact each t (List.contains_iff_mem.1 plain)
  · obtain ⟨hue, hhue, shaded⟩ := List.any_eq_true.1 shaded
    obtain ⟨shade, hshade, known⟩ := (Option.any_eq_true _ _).1 shaded
    obtain ⟨rest, hrest, hshade⟩ := Option.bind_eq_some_iff.1 hshade
    have hueChars : ∀ hue ∈ hues, hue.all isClassChar := by decide
    have shadeChars : ∀ shade ∈ shades, shade.all isClassChar := by decide
    rw [eq_append_of_after? hrest, eq_append_of_after? hshade, List.all_append, List.all_append,
      hueChars hue hhue, shadeChars shade (List.contains_iff_mem.1 known)]
    decide

theorem all_isClassChar_of_isLayer {t : Text} (h : isLayer t) : t.all isClassChar := by
  unfold isLayer at h
  split at h
  · next c r hr =>
    rw [Bool.and_eq_true] at h
    have rest : r.all isClassChar := by
      refine List.all_eq_true.2 fun d hd => ?_
      rcases (Bool.or_eq_true _ _).mp (List.all_eq_true.1 h.2 d hd) with layer | dash
      · exact isClassChar_of_isLayerChar layer
      · rw [of_decide_eq_true dash]
        decide
    rw [eq_append_of_after? hr, List.all_append, List.all_cons, isClassChar_of_isLayerChar h.1, rest]
    decide
  · cases h

/-- Whatever a color was given as, it was spelled in the characters of class names. -/
theorem all_isClassChar {value lead : Text} (hlead : lead.all isClassChar) {c : Color}
    (h : ofText? value lead = some c) : (trim value).all isClassChar := by
  unfold ofText? at h
  dsimp only at h
  split_ifs at h with hex palette layer
  · exact all_isClassChar_of_isHex hex
  · exact all_isClassChar_of_isPalette palette
  · exact all_isClassChar_of_isLayer layer
  · split at h
    · next tail ht =>
      obtain ⟨rest, hr, htail⟩ := Option.bind_eq_some_iff.1 ht
      split_ifs at h with chars
      rw [Bool.and_eq_true] at chars
      rw [eq_append_of_after? hr, eq_append_of_after? htail, List.all_append, List.all_append,
        hlead, chars.2]
      decide
    · cases h

/-! ## Classes given as colors -/

theorem isHexDigit_toLower {c : Char} (h : isHexDigit c) : isHexDigit c.toLower := by
  rcases toLower_cases c with same | ⟨low, high, moved⟩
  · rwa [same]
  · simp only [isHexDigit, Bool.or_eq_true, Bool.and_eq_true, decide_eq_true_eq] at h ⊢
    rcases h with (digit | ⟨ha, -⟩) | ⟨-, hf⟩
    · rw [toLower_of_isDigit digit]
      exact .inl (.inl digit)
    · have : 97 ≤ c.toNat := ha
      omega
    · have : c.toNat ≤ 70 := hf
      refine .inl (.inr ⟨?_, ?_⟩)
      · show 97 ≤ c.toLower.toNat
        omega
      · show c.toLower.toNat ≤ 102
        omega

theorem isHex_lower {t : Text} (h : isHex t) : isHex (lower t) := by
  unfold isHex at h
  split at h
  · next code =>
    rw [Bool.and_eq_true] at h
    have digits : (lower code).all isHexDigit := by
      rw [lower, List.all_map]
      exact List.all_eq_true.2 fun c hc => isHexDigit_toLower (List.all_eq_true.1 h.2 c hc)
    show ((lower code).length == 3 || (lower code).length == 6) && (lower code).all isHexDigit
    rw [digits, lower, List.length_map, h.1]
    rfl
  · cases h

/-- Behind its lead, a class has characters of class names, and one at least. -/
theorem exists_tail_classFor {value lead : Text} {c : Color} (h : ofText? value lead = some c) :
    ∃ tail, c.classFor lead = lead ++ '-' :: tail ∧ tail ≠ [] ∧ tail.all isClassChar := by
  have written {t : Text} (ne : t ≠ []) (chars : t.all isClassChar) :
      ∃ tail, lead ++ "-" ++ t = lead ++ '-' :: tail ∧ tail ≠ [] ∧ tail.all isClassChar :=
    ⟨t, by simp, ne, chars⟩
  unfold ofText? at h
  dsimp only at h
  split_ifs at h with hex palette layer
  · obtain rfl := Option.some.inj h
    refine ⟨'[' :: (lower (trim value) ++ [']']), by simp [classFor], List.cons_ne_nil _ _, ?_⟩
    rw [List.all_cons, List.all_append, all_isClassChar_of_isHex (isHex_lower hex)]
    decide
  · obtain rfl := Option.some.inj h
    refine written (fun empty => ?_) (all_isClassChar_of_isPalette palette)
    rw [empty] at palette
    exact absurd palette (by decide)
  · obtain rfl := Option.some.inj h
    refine written (fun empty => ?_) (all_isClassChar_of_isLayer layer)
    rw [empty] at layer
    exact absurd layer (by decide)
  · split at h
    · next tail ht =>
      obtain ⟨rest, hr, htail⟩ := Option.bind_eq_some_iff.1 ht
      split_ifs at h with chars
      obtain rfl := Option.some.inj h
      rw [Bool.and_eq_true, Bool.not_eq_true', List.isEmpty_eq_false_iff] at chars
      refine ⟨tail, ?_, chars⟩
      rw [classFor, eq_append_of_after? hr, eq_append_of_after? htail]
      rfl
    · cases h

/-- The leads of the properties that take colors. -/
def leads : List Text := ["bg", "border"]

/-- What begins with a lead is no color of another form. -/
theorem ofText?_of_lead {lead tail : Text} (hlead : lead ∈ leads) (ne : tail ≠ [])
    (chars : tail.all isClassChar) :
    ofText? (lead ++ '-' :: tail) lead = some (.classToken (lead ++ '-' :: tail)) := by
  have solid : IsSolid (lead ++ '-' :: tail) := by
    have own : IsSolid lead := (by decide : ∀ l ∈ leads, IsSolid l) lead hlead
    have behind : IsSolid tail := isSolid_of_all (fun _ => not_isBlank_of_isClassChar) chars
    exact isSolid_append.2 ⟨own, isSolid_cons.2 ⟨by decide, behind⟩⟩
  have accepted : (!tail.isEmpty && tail.all isClassChar) = true := by simp [ne, chars]
  unfold ofText?
  rw [solid.trim_eq]
  simp only [leads, List.mem_cons, List.not_mem_nil, or_false] at hlead
  rcases hlead with rfl | rfl
  · show (if (!tail.isEmpty && tail.all isClassChar) = true then _ else _) = _
    rw [if_pos accepted]
  · show (if (!tail.isEmpty && tail.all isClassChar) = true then _ else _) = _
    rw [if_pos accepted]

/-- The class of a color is a color, under the same lead, and its own class. -/
theorem ofText?_classFor {value lead : Text} (hlead : lead ∈ leads) {c : Color}
    (h : ofText? value lead = some c) :
    ofText? (c.classFor lead) lead = some (.classToken (c.classFor lead)) := by
  obtain ⟨tail, own, ne, chars⟩ := exists_tail_classFor h
  rw [own, ofText?_of_lead hlead ne chars]

end Inspector.Color
