import Inspector.Proofs.Group
import Inspector.Token

/-!
# Tokens in lower case

Letter case changes no bracket, no separator and no blank, so a text is cut, stripped and tokenized
in lower case just where it is as it stands.

    cut sep d (lower t) = (cut sep d t).map lower, if `sep` is no letter             (cut_lower)
    strip? (lower t) = (strip? t).map lower                                        (strip?_lower)
    tokenize (lower s) = (tokenize s).map Token.lowered                          (tokenize_lower)
-/

namespace Inspector

open Text

namespace Text

/-- A character that is no letter is a letter in no case. -/
theorem toLower_eq_iff {d : Char} (h : d.toNat < 65 ∨ 122 < d.toNat ∨ 90 < d.toNat ∧ d.toNat < 97)
    (c : Char) : c.toLower = d ↔ c = d := by
  rcases toLower_cases c with hc | ⟨h1, h2, h3⟩
  · rw [hc]
  · constructor
    · rintro rfl
      omega
    · rintro rfl
      omega

theorem afterWord?_lower (head t : Text) :
    afterWord? head (lower t) = (afterWord? head t).map lower := by
  induction head generalizing t with
  | nil => rfl
  | cons c head ih =>
    cases t with
    | nil => rfl
    | cons d t =>
      show afterWord? (c :: head) (d.toLower :: lower t) = _
      rw [afterWord?, afterWord?, toLower_toLower]
      split
      · exact ih t
      · rfl

theorem isEmpty_lower (t : Text) : (lower t).isEmpty = t.isEmpty := List.isEmpty_map

end Text

namespace Group

theorem cut_lower {sep : Char} (hsep : ∀ c : Char, c.toLower = sep ↔ c = sep) (d : Nat) (t : Text) :
    cut sep d (lower t) = (cut sep d t).map lower := by
  induction t generalizing d with
  | nil => rfl
  | cons c t ih =>
    show cut sep d (c.toLower :: lower t) = _
    by_cases hc : c = sep ∧ d = 0
    · have hc' : c.toLower = sep ∧ d = 0 := ⟨(hsep c).2 hc.1, hc.2⟩
      rw [cut, if_pos hc', cut, if_pos hc, ih]
      rfl
    · have hc' : ¬ (c.toLower = sep ∧ d = 0) := fun h => hc ⟨(hsep c).1 h.1, h.2⟩
      rw [cut_cons hc', cut_cons hc, shift_toLower, ih]
      cases cut sep (shift d c) t with
      | nil => rfl
      | cons p ps => rfl

theorem staysOpen_lower (d : Nat) (t : Text) : staysOpen d (lower t) = staysOpen d t := by
  induction t generalizing d with
  | nil => rfl
  | cons c t ih =>
    show staysOpen d (c.toLower :: lower t) = _
    rw [staysOpen, staysOpen, shift_toLower, ih]

theorem closerOf?_toLower (c : Char) : closerOf? c.toLower = closerOf? c := by
  have round := toLower_eq_iff (d := '(') (by decide) c
  have curly := toLower_eq_iff (d := '\x7b') (by decide) c
  have square := toLower_eq_iff (d := '[') (by decide) c
  simp only [closerOf?, round, curly, square]

theorem strip?_lower (t : Text) : strip? (lower t) = (strip? t).map lower := by
  unfold strip?
  rw [trim_lower]
  cases trim t with
  | nil => rfl
  | cons o rest =>
    have last : (lower rest).getLast? = rest.getLast?.map Char.toLower := List.getLast?_map ..
    have front : (lower rest).dropLast = lower rest.dropLast := List.map_dropLast.symm
    have whole : lower (o :: rest) = o.toLower :: lower rest := rfl
    rw [whole]
    dsimp only
    rw [closerOf?_toLower, last, front, staysOpen_lower]
    cases hc : closerOf? o with
    | none => rfl
    | some c =>
      have closer (l : Char) : l.toLower = c ↔ l = c := by
        refine toLower_eq_iff ?_ l
        rcases brackets_of_closerOf? hc with ⟨-, rfl⟩ | ⟨-, rfl⟩ | ⟨-, rfl⟩ <;> decide
      cases rest.getLast? with
      | none => rfl
      | some l =>
        simp only [Option.map_some, closer]
        split
        · rfl
        · rfl

theorem stripNamed?_lower (name t : Text) :
    stripNamed? name (lower t) = (stripNamed? name t).map lower := by
  rw [stripNamed?, trim_lower, afterWord?_lower, stripNamed?]
  cases afterWord? name (trim t) with
  | none => rfl
  | some rest => exact strip?_lower rest

end Group

namespace Token

/-- The token in lower case. -/
def lowered : Token → Token
  | .bare text => .bare (lower text)
  | .pair key value => .pair (lower key) (lower value)

theorem ofSegment_lower (segment : Text) :
    ofSegment (lower segment) = (ofSegment segment).lowered := by
  unfold ofSegment
  rw [Group.cut_lower (toLower_eq_iff (by decide))]
  rcases Group.cut '=' 0 segment with _ | ⟨key, _ | ⟨value, _ | ⟨p, ps⟩⟩⟩
  · rfl
  · rfl
  · show Token.pair (trim (lower key)) (trim (lower value)) = _
    rw [trim_lower, trim_lower]
    rfl
  · rfl

end Token

theorem tokenize_lower (s : Text) : tokenize (lower s) = (tokenize s).map Token.lowered := by
  have trimmed : trim ∘ lower = lower ∘ trim := funext trim_lower
  have nonempty : (fun t : Text => !t.isEmpty) ∘ lower = fun t => !t.isEmpty := by
    funext t
    exact congrArg not (isEmpty_lower t)
  have segments : Token.ofSegment ∘ lower = Token.lowered ∘ Token.ofSegment :=
    funext Token.ofSegment_lower
  rw [tokenize, Group.cut_lower (toLower_eq_iff (by decide)), List.map_map, trimmed,
    ← List.map_map, List.filter_map, nonempty, List.map_map, segments, ← List.map_map, tokenize]

end Inspector
