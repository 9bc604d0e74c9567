import Inspector.Proofs.Layout.Advice
import Inspector.Proofs.Token

/-!
# The spellings of a layout's mode

A mode can be written around a layout, at its head, or among its tokens, or be left to inference.
All of them come to the same tokens in the same mode; they differ in the advice at most.

    wrapper? s = some (m, inner) → tokenize s = [.bare (trim s)]            (tokenize_of_wrapper?)
    read (some (wrapped "Auto" t)) = reading ⟨.auto, tokenize t, none⟩         (read_wrapped_auto)
-/

namespace Inspector.Layout

open Text Inspector.Group

/-! ## Markers -/

/-- A marker of the mode is passed over. -/
theorem reading_marker {mode : Mode} {t : Token} (h : Entry.ofToken t = [.marker])
    (ts : List Token) (a : Option Advice) :
    Resolution.reading ⟨mode, t :: ts, a⟩ = Resolution.reading ⟨mode, ts, a⟩ := by
  have pass (s : State) : s.step mode t = s := by
    rw [State.step, h]
    rfl
  have : run ⟨mode, t :: ts, a⟩ = run ⟨mode, ts, a⟩ := by rw [run, List.foldl_cons, pass, run]
  rw [Resolution.reading, this, Resolution.reading]

/-! ## Wrappers -/

/-- `name{...}` around a text. -/
def wrapped (name t : Text) : Text := name ++ '\x7b' :: t ++ ['\x7d']

theorem trim_wrapped {c : Char} {name : Text} (hc : isBlank c = false) (t : Text) :
    trim (wrapped (c :: name) t) = wrapped (c :: name) t := by
  have := trim_enclosed hc (show isBlank '\x7d' = false by decide) (name ++ '\x7b' :: t)
  simpa [wrapped] using this

theorem stripNamed?_wrapped {c : Char} {name : Text} (hc : isBlank c = false) {t : Text}
    (ht : isBalanced 0 t) : stripNamed? (c :: name) (wrapped (c :: name) t) = some t := by
  rw [stripNamed?, trim_wrapped hc, wrapped, List.append_assoc, afterWord?_append, Option.bind_some]
  exact strip?_enclosed (by decide) (by decide) (by decide) ht

theorem wrapper?_auto {t : Text} (ht : isBalanced 0 t) :
    Mode.wrapper? (wrapped "Auto" t) = some (.auto, t) := by
  have : stripNamed? "Auto" (wrapped "Auto" t) = some t := stripNamed?_wrapped (by decide) ht
  rw [Mode.wrapper?, this]

theorem wrapper?_standard {t : Text} (ht : isBalanced 0 t) :
    Mode.wrapper? (wrapped "Standard" t) = some (.standard, t) := by
  have auto : stripNamed? "Auto" (wrapped "Standard" t) = none := by
    have : trim (wrapped ('S' :: "tandard".toList) t) = wrapped ('S' :: "tandard".toList) t :=
      trim_wrapped (by decide) t
    rw [stripNamed?, show ("Standard".toList : Text) = 'S' :: "tandard".toList by decide, this]
    rfl
  have : stripNamed? "Standard" (wrapped "Standard" t) = some t :=
    stripNamed?_wrapped (by decide) ht
  rw [Mode.wrapper?, auto, this]

theorem wrapper?_trim (s : Text) : Mode.wrapper? (trim s) = Mode.wrapper? s := by
  simp only [Mode.wrapper?, stripNamed?, trim_trim]

/-- A value that a wrapper encloses is one bare token. -/
theorem tokenize_of_wrapper? {s : Text} {w : Mode × Text} (h : Mode.wrapper? s = some w) :
    tokenize s = [.bare (trim s)] := by
  unfold Mode.wrapper? at h
  split at h
  · next inner _ hauto => exact tokenize_of_stripNamed? (by decide) hauto
  · next inner _ hstandard => exact tokenize_of_stripNamed? (by decide) hstandard
  · simp at h

/-- What a wrapper encloses is recognized at the head as well. -/
theorem leading?_of_wrapper? {s : Text} {w : Mode × Text} (h : Mode.wrapper? s = some w) :
    (tokenize s).head?.bind Mode.leading? = some w := by
  rw [tokenize_of_wrapper? h]
  show Mode.wrapper? (trim s) = some w
  rw [wrapper?_trim, h]

/-! ## Resolutions -/

theorem resolve_of_wrapper? {s : Text} {m : Mode} {inner : Text}
    (h : Mode.wrapper? s = some (m, inner)) :
    Mode.resolve (some s) = ⟨m, tokenize inner, none⟩ := by
  rw [← wrapper?_trim] at h
  simp only [Mode.resolve, Option.getD_some]
  cases hs : trim s with
  | nil =>
    have none : Mode.wrapper? [] = none := by decide
    simp [hs, none] at h
  | cons c r =>
    rw [hs] at h
    simp only [h]

theorem resolve_of_wrapper?_eq_none {s : Text} (hs : trim s ≠ []) (h : Mode.wrapper? s = none) :
    Mode.resolve (some s) = Mode.ofTokens (tokenize s) := by
  rw [← wrapper?_trim] at h
  rw [← tokenize_trim]
  simp only [Mode.resolve, Option.getD_some]
  cases hc : trim s with
  | nil => exact absurd hc hs
  | cons c r =>
    rw [hc] at h
    simp only [h]

theorem wrapper?_eq_none_of_head {s : Text} (h : (tokenize s).head?.bind Mode.leading? = none) :
    Mode.wrapper? s = none := by
  cases hw : Mode.wrapper? s with
  | none => rfl
  | some w =>
    rw [leading?_of_wrapper? hw] at h
    simp at h

variable {ts : List Token}

theorem ofTokens_of_autoMarker (hhead : ts.head?.bind Mode.leading? = none)
    (h : ts.any (Mode.isMarker "auto")) : Mode.ofTokens ts = ⟨.auto, ts, none⟩ := by
  rw [Mode.ofTokens, hhead]
  dsimp only
  rw [if_pos h]

theorem ofTokens_of_standardMarker (hhead : ts.head?.bind Mode.leading? = none)
    (hauto : ts.any (Mode.isMarker "auto") = false) (h : ts.any (Mode.isMarker "standard")) :
    Mode.ofTokens ts = ⟨.standard, ts, none⟩ := by
  rw [Mode.ofTokens, hhead]
  dsimp only
  rw [if_neg (Bool.eq_false_iff.1 hauto), if_pos h]

/-- Without a wrapper and without a marker the mode is inferred. -/
theorem ofTokens_of_unmarked (hhead : ts.head?.bind Mode.leading? = none)
    (hauto : ts.any (Mode.isMarker "auto") = false)
    (hstandard : ts.any (Mode.isMarker "standard") = false) :
    Mode.ofTokens ts =
      if ts.any Mode.hintsAuto then ⟨.auto, ts, some .inferredAuto⟩
      else ⟨.standard, ts, some .assumedStandard⟩ := by
  rw [Mode.ofTokens, hhead]
  dsimp only
  rw [if_neg (Bool.eq_false_iff.1 hauto), if_neg (Bool.eq_false_iff.1 hstandard)]

/-! ## Spellings -/

theorem read_wrapped_auto {b : Text} (h : isBalanced 0 b) :
    read (some (wrapped "Auto" b)) = Resolution.reading ⟨.auto, tokenize b, none⟩ := by
  rw [read_eq, resolve_of_wrapper? (wrapper?_auto h)]

theorem read_wrapped_standard {b : Text} (h : isBalanced 0 b) :
    read (some (wrapped "Standard" b)) = Resolution.reading ⟨.standard, tokenize b, none⟩ := by
  rw [read_eq, resolve_of_wrapper? (wrapper?_standard h)]

/-- A text that is not blank and does not begin with a wrapper is read by its markers. -/
theorem read_of_head {s : Text} (hs : trim s ≠ [])
    (h : (tokenize s).head?.bind Mode.leading? = none) :
    read (some s) = (Mode.ofTokens (tokenize s)).reading := by
  rw [read_eq, resolve_of_wrapper?_eq_none hs (wrapper?_eq_none_of_head h)]

section

variable (c : Char) (word : Text) {t : Token} (hc : isBlank c = false)
  (hdepth : depthAfter 0 (c :: word) = 0) (ht : tokenize (c :: word) = [t])
  (hlead : Mode.leading? t = none)

include hc hdepth ht hlead

/-- A word that is no wrapper before a text. -/
theorem read_headed (b : Text) :
    read (some (c :: word ++ ',' :: b)) = (Mode.ofTokens (t :: tokenize b)).reading := by
  have tokens : tokenize (c :: word ++ ',' :: b) = t :: tokenize b := by
    rw [tokenize_append hdepth, ht, List.singleton_append]
  have nonempty : trim (c :: word ++ ',' :: b) ≠ [] := by
    rw [List.cons_append, trim_cons hc]
    exact List.cons_ne_nil _ _
  rw [read_of_head nonempty (by rw [tokens]; exact hlead), tokens]

variable (hentry : Entry.ofToken t = [.marker])

include hentry

theorem read_autoMarker (h : Mode.isMarker "auto" t) (b : Text) :
    read (some (c :: word ++ ',' :: b)) = Resolution.reading ⟨.auto, tokenize b, none⟩ := by
  have head : (t :: tokenize b).head?.bind Mode.leading? = none := hlead
  have marked : (t :: tokenize b).any (Mode.isMarker "auto") := by
    rw [List.any_cons, h, Bool.true_or]
  rw [read_headed c word hc hdepth ht hlead, ofTokens_of_autoMarker head marked,
    reading_marker hentry]

theorem read_standardMarker (hauto : Mode.isMarker "auto" t = false)
    (h : Mode.isMarker "standard" t) {b : Text}
    (hb : (tokenize b).any (Mode.isMarker "auto") = false) :
    read (some (c :: word ++ ',' :: b)) = Resolution.reading ⟨.standard, tokenize b, none⟩ := by
  have head : (t :: tokenize b).head?.bind Mode.leading? = none := hlead
  have unmarked : (t :: tokenize b).any (Mode.isMarker "auto") = false := by
    rw [List.any_cons, hauto, hb, Bool.or_false]
  have marked : (t :: tokenize b).any (Mode.isMarker "standard") := by
    rw [List.any_cons, h, Bool.true_or]
  rw [read_headed c word hc hdepth ht hlead, ofTokens_of_standardMarker head unmarked marked,
    reading_marker hentry]

end

theorem depthAfter_wrapped {name t : Text} (hname : depthAfter 0 name = 0) (ht : isBalanced 0 t) :
    depthAfter 0 (wrapped name t) = 0 := by
  have first : shift 0 '\x7b' = 1 := by decide
  have inside : depthAfter 1 t = 1 := (staysOpen_succ_of_isBalanced ht).2
  rw [wrapped, depthAfter_append, depthAfter_append, hname, depthAfter_cons 0, first, inside]
  rfl

/-- A wrapper before a text is the wrapper around both, but for the advice. -/
theorem read_looseWrapper {b₁ b₂ : Text} (h₁ : isBalanced 0 b₁) (h₂ : isBalanced 0 b₂) :
    read (some (wrapped "Auto" b₁ ++ ',' :: b₂)) =
      (read (some (wrapped "Auto" (b₁ ++ ',' :: b₂)))).advised .looseWrapper := by
  have trimmed :
      trim (wrapped "Auto" b₁ ++ ',' :: b₂) = wrapped "Auto" b₁ ++ ',' :: trimRight b₂ := by
    show trim ('A' :: _) = _
    rw [trim_cons (by decide)]
    exact congrArg ('A' :: ·) (trimRight_append_cons (by decide) _ b₂)
  have head : tokenize (wrapped "Auto" b₁) = [.bare (wrapped "Auto" b₁)] := by
    rw [tokenize_of_wrapper? (wrapper?_auto h₁)]
    exact congrArg (fun t => [Token.bare t]) (trim_wrapped (by decide) b₁)
  have tokens : tokenize (wrapped "Auto" b₁ ++ ',' :: b₂) =
      .bare (wrapped "Auto" b₁) :: tokenize b₂ := by
    rw [tokenize_append (depthAfter_wrapped (by decide) h₁), head, List.singleton_append]
  have loose : Mode.wrapper? (wrapped "Auto" b₁ ++ ',' :: b₂) = none := by
    cases hw : Mode.wrapper? (wrapped "Auto" b₁ ++ ',' :: b₂) with
    | none => rfl
    | some w =>
      -- A wrapper around all of it would be a single token, the first one.
      have single := tokenize_of_wrapper? hw
      rw [tokens, trimmed] at single
      have := congrArg List.length (Token.bare.inj (List.cons.inj single).1)
      simp at this
  have inner : isBalanced 0 (b₁ ++ ',' :: b₂) := by
    rw [isBalanced_append h₁]
    exact h₂
  have leading : Mode.leading? (.bare (wrapped "Auto" b₁)) = some (.auto, b₁) := wrapper?_auto h₁
  rw [read_eq, resolve_of_wrapper?_eq_none (by rw [trimmed]; simp [wrapped]) loose, tokens,
    read_wrapped_auto inner, tokenize_append (depthAfter_of_isBalanced h₁), ← reading_advised,
    Mode.ofTokens, List.head?_cons, Option.bind_some, leading]
  rfl

/-- An inferred mode is the one that a wrapper would give, but for the advice. -/
theorem read_unmarked {b : Text} (h : isBalanced 0 b) (hb : trim b ≠ [])
    (hauto : (tokenize b).any (Mode.isMarker "auto") = false)
    (hstandard : (tokenize b).any (Mode.isMarker "standard") = false)
    (hhead : (tokenize b).head?.bind Mode.leading? = none) :
    read (some b) =
      if (tokenize b).any Mode.hintsAuto then
        (read (some (wrapped "Auto" b))).advised .inferredAuto
      else (read (some (wrapped "Standard" b))).advised .assumedStandard := by
  rw [read_of_head hb hhead, ofTokens_of_unmarked hhead hauto hstandard, read_wrapped_auto h,
    read_wrapped_standard h, ← reading_advised, ← reading_advised]
  split <;> rfl

/-- Every spelling of the mode gives the same reading. A wrapper that does not enclose the whole
text and a mode that has to be inferred add one warning before all others. -/
theorem mode_spellings_agree (b b₁ b₂ : Text) (h : isBalanced 0 b) (h₁ : isBalanced 0 b₁)
    (h₂ : isBalanced 0 b₂) :
    (read (some (wrapped "Auto" b)) = read (some ("Auto," ++ b)) ∧
      read (some (wrapped "Auto" b)) = read (some ("mode=Auto," ++ b))) ∧
    ((tokenize b).any (Mode.isMarker "auto") = false →
      read (some (wrapped "Standard" b)) = read (some ("Standard," ++ b)) ∧
      read (some (wrapped "Standard" b)) = read (some ("mode=Standard," ++ b))) ∧
    read (some (wrapped "Auto" b₁ ++ "," ++ b₂)) =
      (read (some (wrapped "Auto" (b₁ ++ "," ++ b₂)))).advised .looseWrapper ∧
    (trim b ≠ [] →
      (tokenize b).any (Mode.isMarker "auto") = false →
      (tokenize b).any (Mode.isMarker "standard") = false →
      (tokenize b).head?.bind Mode.leading? = none →
      read (some b) =
        if (tokenize b).any Mode.hintsAuto then
          (read (some (wrapped "Auto" b))).advised .inferredAuto
        else (read (some (wrapped "Standard" b))).advised .assumedStandard) := by
  refine ⟨⟨?bare, ?keyed⟩, fun hauto => ⟨?bare', ?keyed'⟩, ?loose, read_unmarked h⟩
  case bare =>
    rw [read_wrapped_auto h]
    exact (read_autoMarker 'A' "uto" (by decide) (by decide) rfl rfl rfl rfl b).symm
  case keyed =>
    rw [read_wrapped_auto h]
    exact (read_autoMarker 'm' "ode=Auto" (by decide) (by decide) rfl rfl rfl rfl
      b).symm
  case bare' =>
    rw [read_wrapped_standard h]
    exact (read_standardMarker 'S' "tandard" (by decide) (by decide) rfl rfl rfl
      rfl rfl hauto).symm
  case keyed' =>
    rw [read_wrapped_standard h]
    exact (read_standardMarker 'm' "ode=Standard" (by decide) (by decide) rfl rfl
      rfl rfl rfl hauto).symm
  case loose => simpa using read_looseWrapper h₁ h₂

/-- A row whose mode is written around it, before it, around its head, or nowhere. -/
theorem spellings_of_row :
    (read (some (wrapped "Auto" "w=1,h=1,flow=row")) = read (some "Auto,w=1,h=1,flow=row") ∧
      read (some (wrapped "Auto" "w=1,h=1,flow=row")) = read (some "mode=Auto,w=1,h=1,flow=row")) ∧
    (read (some (wrapped "Standard" "w=1,h=1,flow=row")) =
        read (some "Standard,w=1,h=1,flow=row") ∧
      read (some (wrapped "Standard" "w=1,h=1,flow=row")) =
        read (some "mode=Standard,w=1,h=1,flow=row")) ∧
    read (some (wrapped "Auto" "size=(w=1,h=1)" ++ ",flow=row")) =
      (read (some (wrapped "Auto" "size=(w=1,h=1),flow=row"))).advised .looseWrapper ∧
    read (some "w=1,h=1,flow=row") =
      (read (some (wrapped "Auto" "w=1,h=1,flow=row"))).advised .inferredAuto := by
  obtain ⟨auto, standard, loose, unmarked⟩ :=
    mode_spellings_agree "w=1,h=1,flow=row" "size=(w=1,h=1)" "flow=row" (by decide) (by decide)
      (by decide)
  exact ⟨auto, standard (by decide), loose,
    unmarked (by decide) (by decide) (by decide) (by decide)⟩

end Inspector.Layout
