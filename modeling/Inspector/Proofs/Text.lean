import Inspector.Text.Blank
import Mathlib.Data.List.DropRight

/-!
# How texts begin and end

Texts that begin with one of a few fixed leads, what the readers of words make of the beginning of
a text, and what is left of a text without the blanks at its ends.

    apart ps qs → BeginsWith ps t → ¬ BeginsWith qs t                       (not_beginsWith_both)
    afterWord? head t = some rest → lower t = lower head ++ lower rest    (lower_of_afterWord?)
    trim (lower t) = lower (trim t)                                                   (trim_lower)
    t = l ++ trim t ++ r, where l and r are blank                                  (exists_blanks)
    trim (trim t) = trim t                                                             (trim_trim)
    c ∈ t → c ∈ trim t, where c is not blank                                           (mem_trim)
    trim (a ++ c :: b) = trimLeft a ++ c :: trimRight b, where c is not blank   (trim_append_cons)
-/

namespace Inspector.Text

/-! ## Leads -/

def BeginsWith (leads : List Text) (t : Text) : Prop := ∃ l ∈ leads, l <+: t

instance (leads : List Text) (t : Text) : Decidable (BeginsWith leads t) :=
  inferInstanceAs (Decidable (∃ l ∈ leads, l <+: t))

/-- No text of one list begins a text of the other. -/
def apart (ps qs : List Text) : Bool :=
  ps.all fun p => qs.all fun q => !p.isPrefixOf q && !q.isPrefixOf p

theorem not_beginsWith_both {ps qs : List Text} {t : Text} (h : apart ps qs)
    (hp : BeginsWith ps t) : ¬ BeginsWith qs t := by
  rintro ⟨q, hq, hqt⟩
  obtain ⟨p, hp, hpt⟩ := hp
  have hpq : ¬ p <+: q ∧ ¬ q <+: p := by
    simpa [← List.isPrefixOf_iff_prefix] using List.all_eq_true.1 (List.all_eq_true.1 h p hp) q hq
  rcases List.prefix_or_prefix_of_prefix hpt hqt with h | h
  · exact hpq.1 h
  · exact hpq.2 h

theorem BeginsWith.of_mem {leads : List Text} {l t : Text} (hl : l ∈ leads) (h : l <+: t) :
    BeginsWith leads t :=
  ⟨l, hl, h⟩

theorem BeginsWith.trans {leads : List Text} {t u : Text} (h : BeginsWith leads t) (htu : t <+: u) :
    BeginsWith leads u := by
  obtain ⟨l, hl, hlt⟩ := h
  exact ⟨l, hl, hlt.trans htu⟩

theorem BeginsWith.mono {ps qs : List Text} {t : Text} (h : BeginsWith ps t)
    (hsub : ∀ p ∈ ps, p ∈ qs) : BeginsWith qs t := by
  obtain ⟨p, hp, hpt⟩ := h
  exact ⟨p, hsub p hp, hpt⟩

/-! ## Letter case -/

/-- Only the letters A to Z change, and each moves by 32 code points. -/
theorem toLower_cases (c : Char) :
    c.toLower = c ∨ 65 ≤ c.toNat ∧ c.toNat ≤ 90 ∧ c.toLower.toNat = c.toNat + 32 := by
  unfold Char.toLower
  split
  · next h =>
    have h1 : 65 ≤ c.toNat := h.1
    have h2 : c.toNat ≤ 90 := h.2
    refine .inr ⟨h1, h2, ?_⟩
    show (c.val + 32).toNat = c.val.toNat + 32
    have : c.val.toNat ≤ 90 := h2
    rw [UInt32.toNat_add]
    show (c.val.toNat + 32) % 2 ^ 32 = c.val.toNat + 32
    omega
  · exact .inl rfl

theorem toLower_of_isDigit {c : Char} (h : c.isDigit) : c.toLower = c := by
  have digit : c.toNat ≤ 57 := (Bool.and_eq_true_iff.1 h).2 |> of_decide_eq_true
  exact (toLower_cases c).resolve_right fun upper => by omega

theorem toLower_toLower (c : Char) : c.toLower.toLower = c.toLower := by
  rcases toLower_cases c.toLower with h | ⟨h1, h2, -⟩
  · exact h
  · rcases toLower_cases c with h | ⟨h3, h4, h5⟩
    · rw [h, h]
    · omega

theorem lower_lower (t : Text) : lower (lower t) = lower t := by
  have once : Char.toLower ∘ Char.toLower = Char.toLower := funext toLower_toLower
  simp only [lower, List.map_map, once]

/-! ## Words -/

theorem lower_of_afterWord? {head t rest : Text} (h : afterWord? head t = some rest) :
    lower t = lower head ++ lower rest := by
  induction head generalizing t with
  | nil => simp_all [afterWord?, lower]
  | cons c cs ih =>
    cases t with
    | nil => simp [afterWord?] at h
    | cons d ds =>
      simp only [afterWord?] at h
      split at h
      · next hcd =>
        have := ih h
        simp_all [lower]
      · simp at h

/-- What follows a word, however the word is spelled. -/
theorem afterWord?_of_lower {head word : Text} (h : lower word = lower head) (rest : Text) :
    afterWord? head (word ++ rest) = some rest := by
  induction head generalizing word with
  | nil =>
    obtain rfl : word = [] := List.map_eq_nil_iff.1 h
    cases rest <;> rfl
  | cons c cs ih =>
    cases word with
    | nil => simp [lower] at h
    | cons d ds =>
      have hcd : d.toLower = c.toLower ∧ lower ds = lower cs := by simpa [lower] using h
      rw [List.cons_append, afterWord?, if_pos hcd.1.symm, ih hcd.2]

theorem afterWord?_append (head rest : Text) : afterWord? head (head ++ rest) = some rest :=
  afterWord?_of_lower rfl rest

/-- A text that begins with a word, cut behind it. -/
theorem eq_append_of_afterWord? {head t rest : Text} (h : afterWord? head t = some rest) :
    ∃ word, t = word ++ rest ∧ lower word = lower head := by
  induction head generalizing t with
  | nil => exact ⟨[], by simpa [afterWord?] using h, rfl⟩
  | cons c cs ih =>
    cases t with
    | nil => simp [afterWord?] at h
    | cons d ds =>
      simp only [afterWord?] at h
      split at h
      · next hcd =>
        obtain ⟨word, rfl, hw⟩ := ih h
        exact ⟨d :: word, rfl, by simpa [lower, hcd] using hw⟩
      · simp at h

/-! ## Blanks -/

theorem isBlank_toLower (c : Char) : isBlank c.toLower = isBlank c := by
  rcases toLower_cases c with h | ⟨h1, h2, h3⟩
  · rw [h]
  · have : isBlank c = false := by simp [isBlank, blankRanges]; omega
    rw [this]
    simp [isBlank, blankRanges]; omega

theorem trim_lower (t : Text) : trim (lower t) = lower (trim t) := by
  have blank : isBlank ∘ Char.toLower = isBlank := funext isBlank_toLower
  simp only [trim, trimLeft, trimRight, lower, ← List.map_reverse, List.dropWhile_map, blank]

/-- What `trim` cuts off at the two ends. -/
theorem exists_blanks (t : Text) :
    ∃ l r, t = l ++ trim t ++ r ∧ (∀ c ∈ l, isBlank c) ∧ ∀ c ∈ r, isBlank c := by
  refine ⟨t.takeWhile isBlank, (trimLeft t).rtakeWhile isBlank, ?_, ?_, ?_⟩
  · have right : trim t ++ (trimLeft t).rtakeWhile isBlank = trimLeft t :=
      List.rdropWhile_append_rtakeWhile
    rw [List.append_assoc, right]
    exact List.takeWhile_append_dropWhile.symm
  · intro c hc
    exact List.mem_takeWhile_imp hc
  · intro c hc
    exact List.mem_rtakeWhile_imp hc

/-- Only blanks are trimmed away. -/
theorem mem_trim {c : Char} (hc : isBlank c = false) {t : Text} (h : c ∈ t) : c ∈ trim t := by
  obtain ⟨l, r, ht, hl, hr⟩ := exists_blanks t
  have notBlank {u : Text} (hu : ∀ c ∈ u, isBlank c) : c ∉ u := by
    intro hmem
    rw [hu c hmem] at hc
    cases hc
  rw [ht, List.mem_append, List.mem_append] at h
  exact (h.resolve_right (notBlank hr)).resolve_left (notBlank hl)

theorem trimLeft_cons_of_blank {c : Char} (h : isBlank c) (t : Text) :
    trimLeft (c :: t) = trimLeft t :=
  List.dropWhile_cons_of_pos h

theorem trimLeft_cons {c : Char} (h : isBlank c = false) (t : Text) :
    trimLeft (c :: t) = c :: t :=
  List.dropWhile_cons_of_neg (by simp [h])

theorem trimRight_concat_of_blank {c : Char} (h : isBlank c) (t : Text) :
    trimRight (t ++ [c]) = trimRight t :=
  List.rdropWhile_concat_pos isBlank t c h

theorem trimRight_concat {c : Char} (h : isBlank c = false) (t : Text) :
    trimRight (t ++ [c]) = t ++ [c] :=
  List.rdropWhile_concat_neg isBlank t c (by simp [h])

/-- Whatever stands before a character that is not blank stays. -/
theorem trimRight_append_cons {c : Char} (h : isBlank c = false) (a b : Text) :
    trimRight (a ++ c :: b) = a ++ c :: trimRight b := by
  induction b using List.reverseRecOn with
  | nil => simpa [trimRight] using trimRight_concat h a
  | append_singleton b d ih =>
    rw [← List.cons_append, ← List.append_assoc]
    cases hd : isBlank d with
    | true => rw [trimRight_concat_of_blank hd, trimRight_concat_of_blank hd, ih]
    | false =>
      rw [trimRight_concat hd, trimRight_concat hd, List.append_assoc, List.cons_append]

/-- A text without a blank at its head keeps its head. -/
theorem trim_cons {c : Char} (h : isBlank c = false) (t : Text) :
    trim (c :: t) = c :: trimRight t := by
  rw [trim, trimLeft_cons h]
  exact trimRight_append_cons h [] t

theorem trim_cons_of_blank {c : Char} (h : isBlank c) (t : Text) : trim (c :: t) = trim t := by
  rw [trim, trimLeft_cons_of_blank h, trim]

theorem trim_concat_of_blank {c : Char} (h : isBlank c) (t : Text) : trim (t ++ [c]) = trim t := by
  induction t with
  | nil => simp [trim, trimLeft, trimRight, h]
  | cons d t ih =>
    cases hd : isBlank d with
    | true => rw [List.cons_append, trim_cons_of_blank hd, trim_cons_of_blank hd, ih]
    | false => rw [List.cons_append, trim_cons hd, trim_cons hd, trimRight_concat_of_blank h]

/-- A text that has no blank at either end is its own trim. -/
theorem trim_enclosed {o c : Char} (ho : isBlank o = false) (hc : isBlank c = false) (t : Text) :
    trim (o :: t ++ [c]) = o :: t ++ [c] := by
  rw [List.cons_append, trim_cons ho, trimRight_concat hc]

theorem trim_trim (t : Text) : trim (trim t) = trim t := by
  induction t with
  | nil => rfl
  | cons c t ih =>
    cases hc : isBlank c with
    | true => rw [trim_cons_of_blank hc, ih]
    | false =>
      rw [trim_cons hc, trim_cons hc]
      exact congrArg (c :: ·) (List.rdropWhile_idempotent isBlank t)

/-- A text that is trimmed begins with no blank. -/
theorem trimLeft_trim (t : Text) : trimLeft (trim t) = trim t := by
  induction t with
  | nil => rfl
  | cons c t ih =>
    cases hc : isBlank c with
    | true => rw [trim_cons_of_blank hc, ih]
    | false => rw [trim_cons hc, trimLeft_cons hc]

theorem trimRight_trim (t : Text) : trimRight (trim t) = trim t :=
  List.rdropWhile_idempotent isBlank (trimLeft t)

theorem trim_trimRight (t : Text) : trim (trimRight t) = trim t := by
  induction t using List.reverseRecOn with
  | nil => rfl
  | append_singleton t c ih =>
    cases hc : isBlank c with
    | true => rw [trimRight_concat_of_blank hc, trim_concat_of_blank hc, ih]
    | false => rw [trimRight_concat hc]

/-- Only what stands before and what stands behind a character that is not blank is trimmed, each
at its outer end. -/
theorem trim_append_cons {c : Char} (h : isBlank c = false) (a b : Text) :
    trim (a ++ c :: b) = trimLeft a ++ c :: trimRight b := by
  induction a with
  | nil => exact trim_cons h b
  | cons d a ih =>
    cases hd : isBlank d with
    | true => rw [List.cons_append, trim_cons_of_blank hd, trimLeft_cons_of_blank hd, ih]
    | false =>
      rw [trimLeft_cons hd, List.cons_append, trim_cons hd, trimRight_append_cons h,
        List.cons_append]

end Inspector.Text
