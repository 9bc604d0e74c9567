import Inspector.Proofs.Text

/-!
# Texts without blanks

A solid text has no blank in it. What digits, signs and keywords make up is solid, and solid texts
that are joined by spaces come apart again, whether they are cut at the spaces or at every blank.

    IsSolid (s ++ t) ↔ IsSolid s ∧ IsSolid t                                    (isSolid_append)
    w ∈ words t → w ≠ [] ∧ IsSolid w                                         (solid_of_mem_words)
    ws solid and not empty → words (joined " " ws) = ws                            (words_joined)
    ws solid → (joined " " ws).splitOn ' ' = ws, unless there are none           (splitOn_joined)
-/

namespace Inspector.Text

/-- No character of the text is blank. -/
def IsSolid (t : Text) : Prop := ∀ c ∈ t, isBlank c = false

instance (t : Text) : Decidable (IsSolid t) := List.decidableBAll _ t

/-! ## Closure -/

@[simp] theorem isSolid_nil : IsSolid [] := nofun

@[simp] theorem isSolid_cons {c : Char} {t : Text} :
    IsSolid (c :: t) ↔ isBlank c = false ∧ IsSolid t :=
  List.forall_mem_cons

@[simp] theorem isSolid_append {s t : Text} : IsSolid (s ++ t) ↔ IsSolid s ∧ IsSolid t :=
  List.forall_mem_append

theorem IsSolid.subset {s t : Text} (h : IsSolid t) (hst : s ⊆ t) : IsSolid s :=
  fun c hc => h c (hst hc)

/-- Nothing is trimmed off a solid text. -/
theorem IsSolid.trim_eq {t : Text} (h : IsSolid t) : trim t = t := by
  have left : trimLeft t = t := by
    refine List.dropWhile_eq_self_iff.2 fun ht => ?_
    rw [h _ (List.getElem_mem ht)]
    exact Bool.false_ne_true
  rw [trim, left, trimRight]
  refine List.rdropWhile_eq_self_iff.2 fun ht => ?_
  rw [h _ (List.getLast_mem ht)]
  exact Bool.false_ne_true

theorem isSolid_lower {t : Text} (h : IsSolid t) : IsSolid (lower t) := by
  intro c hc
  obtain ⟨d, hd, rfl⟩ := List.mem_map.1 hc
  rw [isBlank_toLower]
  exact h d hd

/-- The printable characters of ASCII but the space are not blank. -/
theorem not_isBlank_of_ascii {c : Char} (h : 33 ≤ c.toNat) (h' : c.toNat ≤ 126) :
    isBlank c = false := by
  simp [isBlank, blankRanges]
  omega

theorem not_isBlank_of_between {a b c : Char} (ha : 33 ≤ a.toNat) (hb : b.toNat ≤ 126)
    (hac : a ≤ c) (hcb : c ≤ b) : isBlank c = false :=
  not_isBlank_of_ascii (Nat.le_trans ha hac) (Nat.le_trans hcb hb)

theorem not_isBlank_of_isDigit {c : Char} (h : c.isDigit) : isBlank c = false := by
  unfold Char.isDigit at h
  rw [Bool.and_eq_true, decide_eq_true_iff, decide_eq_true_iff] at h
  exact not_isBlank_of_between (a := '0') (b := '9') (by decide) (by decide) h.1 h.2

theorem not_isBlank_of_isAlphanum {c : Char} (h : c.isAlphanum) : isBlank c = false := by
  have kinds : (c.isUpper || c.isLower || c.isDigit) = true := h
  rw [Bool.or_eq_true, Bool.or_eq_true] at kinds
  rcases kinds with (upper | lower) | digit
  · obtain ⟨ge, le⟩ := of_decide_eq_true upper
    exact not_isBlank_of_between (a := 'A') (b := 'Z') (by decide) (by decide) ge le
  · unfold Char.isLower at lower
    rw [Bool.and_eq_true, decide_eq_true_iff, decide_eq_true_iff] at lower
    exact not_isBlank_of_between (a := 'a') (b := 'z') (by decide) (by decide) lower.1 lower.2
  · exact not_isBlank_of_isDigit digit

theorem isSolid_of_all {p : Char → Bool} (hp : ∀ c, p c → isBlank c = false) {t : Text}
    (h : t.all p) : IsSolid t :=
  fun c hc => hp c (List.all_eq_true.1 h c hc)

theorem isSolid_toDigits (n : Nat) : IsSolid (Nat.toDigits 10 n) :=
  fun _ hc => not_isBlank_of_isDigit
    (Nat.isDigit_of_mem_toDigits (by decide) (by decide) hc)

/-! ## Words -/

/-- No piece of a split has a character in it at which it was cut. -/
theorem not_of_mem_splitOnP {p : Char → Bool} {t w : Text} (hw : w ∈ t.splitOnP p) :
    ∀ c ∈ w, p c = false := by
  induction t generalizing w with
  | nil =>
    rw [List.splitOnP_nil, List.mem_singleton] at hw
    simp [hw]
  | cons c t ih =>
    rw [List.splitOnP_cons_eq_if_modifyHead] at hw
    split at hw
    · rcases List.mem_cons.1 hw with rfl | hw
      · simp
      · exact ih hw
    · next hc =>
      obtain ⟨first, rest, hsplit⟩ := List.exists_cons_of_ne_nil (List.splitOnP_ne_nil p t)
      rw [hsplit, List.modifyHead_cons] at hw
      rcases List.mem_cons.1 hw with rfl | hw
      · exact List.forall_mem_cons.2
          ⟨by simpa using hc, ih (hsplit ▸ List.mem_cons_self)⟩
      · exact ih (hsplit ▸ List.mem_cons_of_mem _ hw)

theorem solid_of_mem_words {t w : Text} (h : w ∈ words t) : w ≠ [] ∧ IsSolid w := by
  obtain ⟨hw, hne⟩ := List.mem_filter.1 h
  exact ⟨by simpa using hne, not_of_mem_splitOnP hw⟩

theorem words_of_solid {w : Text} (hne : w ≠ []) (h : IsSolid w) : words w = [w] := by
  rw [words, List.splitOnP_eq_singleton h]
  simp [hne]

theorem words_append_cons {c : Char} (hc : isBlank c) (s t : Text) :
    words (s ++ c :: t) = words s ++ words t := by
  unfold words
  rw [List.splitOnP_append_cons s t hc, List.filter_append]

theorem words_append_space (s t : Text) : words (s ++ ' ' :: t) = words s ++ words t :=
  words_append_cons (by decide) s t

theorem words_ne_nil {c : Char} (hc : isBlank c = false) (t : Text) : words (c :: t) ≠ [] := by
  rw [words, List.splitOnP_cons_eq_if_modifyHead, if_neg (by simp [hc])]
  cases ht : List.splitOnP isBlank t with
  | nil => exact absurd ht (List.splitOnP_ne_nil isBlank t)
  | cons w ws => simp

theorem words_of_blank {t : Text} (h : ∀ c ∈ t, isBlank c) : words t = [] := by
  induction t with
  | nil => rfl
  | cons c t ih =>
    obtain ⟨hc, ht⟩ := List.forall_mem_cons.1 h
    exact (words_append_cons hc [] t).trans (ih ht)

/-- Blanks at the ends are no part of a word. -/
theorem words_trim (t : Text) : words (trim t) = words t := by
  have behind (s : Text) {r : Text} (hr : ∀ c ∈ r, isBlank c) : words (s ++ r) = words s := by
    cases r with
    | nil => rw [List.append_nil]
    | cons c r =>
      obtain ⟨hc, hr⟩ := List.forall_mem_cons.1 hr
      rw [words_append_cons hc, words_of_blank hr, List.append_nil]
  have before (s : Text) {l : Text} (hl : ∀ c ∈ l, isBlank c) : words (l ++ s) = words s := by
    induction l with
    | nil => rfl
    | cons c l ih =>
      obtain ⟨hc, hl⟩ := List.forall_mem_cons.1 hl
      exact (words_append_cons hc [] (l ++ s)).trans (ih hl)
  obtain ⟨l, r, ht, hl, hr⟩ := exists_blanks t
  conv => rhs; rw [ht]
  rw [behind _ hr, before _ hl]

theorem words_eq_nil_iff {t : Text} : words t = [] ↔ trim t = [] := by
  rw [← words_trim]
  constructor
  · intro h
    cases ht : trim t with
    | nil => rfl
    | cons c r =>
      cases hc : isBlank c with
      | false => exact absurd (ht ▸ h) (words_ne_nil hc r)
      | true =>
        have shorter := length_trimLeft_le r
        have same := congrArg List.length (trimLeft_trim t)
        rw [ht, trimLeft_cons_of_blank hc, List.length_cons] at same
        omega
  · intro h
    rw [h]
    rfl

/-! ## Joined texts -/

theorem joined_eq_intercalate (mid : Text) (ps : List Text) :
    joined mid ps = mid.intercalate ps := by
  induction ps with
  | nil => rfl
  | cons p ps ih =>
    cases ps with
    | nil => simp [joined]
    | cons q ps => rw [joined, ih, List.intercalate_cons_cons]

/-- Words that are joined by spaces are the words of the whole. -/
theorem words_joined {ws : List Text} (h : ∀ w ∈ ws, w ≠ [] ∧ IsSolid w) :
    words (joined " " ws) = ws := by
  induction ws with
  | nil => rfl
  | cons w ws ih =>
    obtain ⟨⟨hne, hw⟩, hws⟩ := List.forall_mem_cons.1 h
    cases ws with
    | nil => exact words_of_solid hne hw
    | cons v ws =>
      rw [joined, List.append_assoc, show (" ".toList ++ joined " " (v :: ws) : Text) =
        ' ' :: joined " " (v :: ws) from rfl, words_append_space, words_of_solid hne hw, ih hws,
        List.singleton_append]

theorem splitOn_joined {ws : List Text} (h : ∀ w ∈ ws, IsSolid w) (hne : ws ≠ []) :
    (joined " " ws).splitOn ' ' = ws := by
  rw [joined_eq_intercalate]
  exact List.splitOn_intercalate ' ' (fun w hw hc => absurd (h w hw ' ' hc) (by decide)) hne

theorem isSolid_joined {mid : Text} (hmid : IsSolid mid) {ps : List Text}
    (h : ∀ p ∈ ps, IsSolid p) : IsSolid (joined mid ps) := by
  induction ps with
  | nil => exact isSolid_nil
  | cons p ps ih =>
    obtain ⟨hp, hps⟩ := List.forall_mem_cons.1 h
    cases ps with
    | nil => exact hp
    | cons q ps => exact isSolid_append.2 ⟨isSolid_append.2 ⟨hp, hmid⟩, ih hps⟩

/-- The only blanks between solid texts that are joined by spaces are these spaces. -/
theorem eq_space_of_mem_joined {ws : List Text} (h : ∀ w ∈ ws, IsSolid w) {c : Char}
    (hc : c ∈ joined " " ws) (blank : isBlank c) : c = ' ' := by
  induction ws with
  | nil => simp [joined] at hc
  | cons w ws ih =>
    obtain ⟨hw, hws⟩ := List.forall_mem_cons.1 h
    have solid (hcw : c ∈ w) : c = ' ' := by
      rw [hw c hcw] at blank
      exact absurd blank Bool.false_ne_true
    cases ws with
    | nil => exact solid hc
    | cons v ws =>
      rcases List.mem_append.1 hc with hc | hc
      · rcases List.mem_append.1 hc with hc | hc
        · exact solid hc
        · exact List.mem_singleton.1 hc
      · exact ih hws hc

end Inspector.Text
