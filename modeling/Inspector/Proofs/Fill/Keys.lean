import Inspector.Fill
import Inspector.Proofs.Color
import Inspector.Proofs.Token.Keys

/-!
# Fills with the same keys in any case

A fill knows its keys in lower case and quotes them so. An image key may stand in a bare token, if
the reference behind it has a `=` of its own; it is known in any case there, too. So tokens that are
the same but for the case of keys have the same entries, and the fills the same reports.

    SameToken t t' → Entry.ofToken t = Entry.ofToken t'                             (ofToken_eq)
    ts.Forall₂ SameToken ts' → reading ts = reading ts'                       (reading_of_same_keys)
-/

namespace Inspector.Fill

open Text

/-- Equal texts, or a reference behind the same image key in any case. -/
inductive SameBare : Text → Text → Prop where
  | same (text : Text) : SameBare text text
  | image {key key' : Text} (hkey : lower key = lower key')
    (image : Entry.isImageKey (lower (trim key))) (reference : Text) :
    SameBare (key ++ '=' :: reference) (key' ++ '=' :: reference)

/-- Tokens of a fill that differ in the case of keys alone. -/
abbrev SameToken : Token → Token → Prop := Token.SameButKey SameBare fun _ => Eq

/-! ## Image keys -/

/-- The characters of image keys in any case, and the blanks around them. -/
def isKeyChar (c : Char) : Bool := isBlank c || "urlimagesc".toList.contains c.toLower

theorem isKeyChar_of_mem {key : Text} (h : Entry.isImageKey (lower (trim key))) {c : Char}
    (hc : c ∈ key) : isKeyChar c := by
  have letters : ∀ word, Entry.isImageKey word → word.all "urlimagesc".toList.contains := by
    intro word hword
    simp only [Entry.isImageKey, Bool.or_eq_true, decide_eq_true_eq] at hword
    rcases hword with (rfl | rfl) | rfl
    · rfl
    · rfl
    · rfl
  obtain ⟨l, r, hkey, hl, hr⟩ := exists_blanks key
  rw [hkey, List.mem_append, List.mem_append] at hc
  rw [isKeyChar, Bool.or_eq_true]
  rcases hc with (hc | hc) | hc
  · exact .inl (hl c hc)
  · have hlower : c.toLower ∈ lower (trim key) := List.mem_map_of_mem hc
    exact .inr (List.all_eq_true.1 (letters _ h) _ hlower)
  · exact .inl (hr c hc)

/-- No character of an image key is, in lower case, one that no key has. -/
theorem toLower_ne_of_mem {key : Text} (h : Entry.isImageKey (lower (trim key))) {d : Char}
    (hd : (isBlank d || "urlimagesc".toList.contains d) = false) {c : Char} (hc : c ∈ key) :
    c.toLower ≠ d := by
  rintro rfl
  have := isKeyChar_of_mem h hc
  rw [isKeyChar, ← isBlank_toLower, hd] at this
  cases this

theorem not_mem_of_isImageKey {key : Text} (h : Entry.isImageKey (lower (trim key))) {d : Char}
    (hd : isKeyChar d = false) : d ∉ key := by
  intro hmem
  rw [isKeyChar_of_mem h hmem] at hd
  cases hd

/-! ## Bare images -/

/-- A text with a `=` is no color. -/
theorem ofText?_of_equals (front rest : Text) :
    Color.ofText? (front ++ '=' :: rest) "bg" = none := by
  cases hc : Color.ofText? (front ++ '=' :: rest) "bg" with
  | none => rfl
  | some c =>
    have chars := Color.all_isClassChar (by decide) hc
    rw [trim_append_cons (by decide), List.all_append, List.all_cons] at chars
    have equals : Color.isClassChar '=' = false := by decide
    simp [equals] at chars

theorem afterWord?_url_of_key {key : Text} (h : Entry.isImageKey (lower (trim key)))
    (rest : Text) : afterWord? "url(" (key ++ '=' :: rest) = none := by
  cases hr : afterWord? "url(" (key ++ '=' :: rest) with
  | none => rfl
  | some behind =>
    obtain ⟨word, hword, hlower⟩ := eq_append_of_afterWord? hr
    have opened : '(' ∈ lower word := by
      rw [hlower]
      decide
    obtain ⟨c, hc, hopen⟩ := List.mem_map.1 opened
    have unequal : '=' ∉ word := by
      intro hmem
      have : '=' ∈ lower word := List.mem_map.2 ⟨'=', hmem, rfl⟩
      rw [hlower] at this
      exact absurd this (by decide)
    have short : word <+: key := by
      rcases List.append_eq_append_iff.1 hword with ⟨a, hw, ha⟩ | ⟨a, hk, -⟩
      · cases a with
        | nil => exact ⟨[], by rw [hw, List.append_nil, List.append_nil]⟩
        | cons d a =>
          obtain ⟨rfl, -⟩ := List.cons.inj ha
          exact absurd (by rw [hw]; simp) unequal
      · exact ⟨a, hk.symm⟩
    exact absurd hopen (toLower_ne_of_mem h (by decide) (short.subset hc))

/-- What passes a scheme stops at such a character at the latest. -/
theorem dropWhile_isSchemeChar {d : Char} (hd : Image.isSchemeChar d = false)
    (front rest : Text) : (front ++ d :: rest).dropWhile Image.isSchemeChar =
      front.dropWhile Image.isSchemeChar ++ d :: rest := by
  induction front with
  | nil => exact List.dropWhile_cons_of_neg (Bool.not_eq_true _ ▸ hd)
  | cons c front ih =>
    by_cases hc : Image.isSchemeChar c
    · rw [List.cons_append, List.dropWhile_cons_of_pos hc, List.dropWhile_cons_of_pos hc, ih]
    · rw [List.cons_append, List.dropWhile_cons_of_neg hc, List.dropWhile_cons_of_neg hc,
        List.cons_append]

theorem isSchemeChar_of_isAlpha {c : Char} (h : c.isAlpha) : Image.isSchemeChar c := by
  rw [Image.isSchemeChar, Color.isAlphanum_of_isAlpha h]
  rfl

/-- A text that has neither slash nor colon up to a character that no scheme has is no reference
without a key. -/
theorem isBare_of_not_scheme {d : Char} (hd : Image.isSchemeChar d = false) {front : Text}
    (slash : '/' ∉ front ++ [d]) (colon : ':' ∉ front ++ [d]) (rest : Text) :
    Image.isBare (front ++ d :: rest) = false := by
  have scheme (front : Text) (colon : ':' ∉ front ++ [d]) :
      after? "://" (front ++ d :: rest) = none := by
    cases front with
    | nil => exact if_neg fun h : ':' = d => colon (h ▸ List.mem_singleton_self _)
    | cons e front => exact if_neg fun h : ':' = e => colon (h ▸ List.mem_cons_self)
  have root : Image.afterRoot? (front ++ d :: rest) = none := by
    unfold Image.afterRoot?
    split
    · next behind heq =>
      cases front with
      | nil => exact absurd ((List.cons.inj heq).1 ▸ List.mem_singleton_self _) slash
      | cons c front => exact absurd ((List.cons.inj heq).1 ▸ List.mem_cons_self) slash
    · next c behind _ heq =>
      cases front with
      | nil =>
        obtain ⟨rfl, -⟩ := List.cons.inj heq
        refine if_neg fun alpha => ?_
        rw [isSchemeChar_of_isAlpha alpha] at hd
        cases hd
      | cons c' front =>
        rw [List.cons_append] at heq
        obtain ⟨rfl, rfl⟩ := List.cons.inj heq
        have later : ':' ∉ front.dropWhile Image.isSchemeChar ++ [d] := by
          intro hmem
          rw [List.mem_append] at hmem
          refine colon (List.mem_cons_of_mem _ (List.mem_append.2 (hmem.imp_left fun h => ?_)))
          exact (List.dropWhile_sublist _).subset h
        rw [dropWhile_isSchemeChar hd, scheme _ later, ite_self]
    · rfl
  rw [Image.isBare, root]

theorem imagePair?_of_key {key : Text} (h : Entry.isImageKey (lower (trim key))) (rest : Text) :
    Entry.imagePair? (key ++ '=' :: rest) = some rest := by
  have before : ∀ c ∈ key, (c != '=') = true := by
    intro c hc
    have hne : c ≠ '=' := fun heq => not_mem_of_isImageKey h (by decide) (heq ▸ hc)
    simpa using hne
  have reference : (key ++ '=' :: rest).dropWhile (· != '=') = '=' :: rest := by
    rw [List.dropWhile_append_of_pos before]
    rfl
  have front : (key ++ '=' :: rest).takeWhile (· != '=') = key := by
    rw [List.takeWhile_append_of_pos before]
    exact List.append_nil key
  rw [Entry.imagePair?, reference, front]
  exact if_pos h

/-- A reference behind an image key is an image, whatever it holds. -/
theorem ofBare_of_key {key : Text} (h : Entry.isImageKey (lower (trim key))) (rest : Text) :
    Entry.ofBare (key ++ '=' :: rest) = .image rest := by
  have bare : Image.isBare (trim (key ++ '=' :: rest)) = false := by
    rw [trim_append_cons (by decide)]
    have sub : trimLeft key ⊆ key := (List.dropWhile_sublist _).subset
    have notIn {d : Char} (hd : isKeyChar d = false) (hne : d ≠ '=') : d ∉ trimLeft key ++ ['='] := by
      rw [List.mem_append, List.mem_singleton]
      exact not_or.2 ⟨fun hc => not_mem_of_isImageKey h hd (sub hc), hne⟩
    exact isBare_of_not_scheme (by decide) (notIn (by decide) (by decide))
      (notIn (by decide) (by decide)) _
  rw [Entry.ofBare, ofText?_of_equals, afterWord?_url_of_key h, bare, imagePair?_of_key h]
  rfl

/-! ## Readings -/

theorem ofToken_eq {t t' : Token} (h : SameToken t t') : Entry.ofToken t = Entry.ofToken t' := by
  cases h with
  | pair hkey hvalue => rw [Entry.ofToken, Entry.ofToken, hkey, hvalue]
  | bare hbare =>
    cases hbare with
    | same => rfl
    | image hkey image reference =>
      have image' := image
      rw [← trim_lower, hkey, trim_lower] at image'
      rw [Entry.ofToken, Entry.ofToken, ofBare_of_key image, ofBare_of_key image']

theorem run_of_same_keys {ts ts' : List Token} (h : List.Forall₂ SameToken ts ts') :
    run ts = run ts' := by
  have step (s s' : State) (hs : s = s') (t t' : Token) (ht : SameToken t t') :
      s.step t = s'.step t' := by
    rw [hs, State.step, State.step, ofToken_eq ht]
  exact List.rel_foldl (P := Eq) (R := SameToken) (fun _ _ hs _ _ ht => step _ _ hs _ _ ht) rfl h

/-- The report that a list of tokens gives. -/
def reading : List Token → Report
  | [] => {}
  | ts => (run ts).finish.draft.report .fill Error.message Warning.message

theorem read_eq (input : Option Text) : read input = reading (tokens input) := by
  unfold read reading
  cases tokens input <;> rfl

theorem reading_of_same_keys {ts ts' : List Token} (h : List.Forall₂ SameToken ts ts') :
    reading ts = reading ts' := by
  have runs := run_of_same_keys h
  cases h with
  | nil => rfl
  | @cons t t' ts ts' =>
    show (run (t :: ts)).finish.draft.report .fill Error.message Warning.message =
      (run (t' :: ts')).finish.draft.report .fill Error.message Warning.message
    rw [runs]

end Inspector.Fill
