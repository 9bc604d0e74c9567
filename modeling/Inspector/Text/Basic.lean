/-!
# Text

A text is the list of its characters, so that every function on it is a list function and every
statement about it is a statement about lists. String literals stand for their characters.
Keywords are compared without regard to the case of the letters A to Z; no other letter folds.
-/

namespace Inspector

/-- A text, character by character. -/
abbrev Text := List Char

instance : Coe String Text := ⟨String.toList⟩

namespace Text

/-- The letters A to Z in lower case, every other character as it is. -/
def lower (t : Text) : Text := t.map Char.toLower

/-- Equality up to the case of the letters A to Z. -/
def sameWord (s t : Text) : Bool := lower s == lower t

/-- The rest of `t` after `head`, which `t` has to start with. -/
def after? : Text → Text → Option Text
  | [], t => some t
  | _ :: _, [] => none
  | h :: hs, c :: cs => if h = c then after? hs cs else none

/-- The rest of `t` after `head`, which `t` has to start with up to the case of A to Z. -/
def afterWord? : Text → Text → Option Text
  | [], t => some t
  | _ :: _, [] => none
  | h :: hs, c :: cs => if h.toLower = c.toLower then afterWord? hs cs else none

/-- Whether `part` occurs in `t`. -/
def has (part : Text) : Text → Bool
  | [] => part.isEmpty
  | c :: r => part.isPrefixOf (c :: r) || has part r

/-- The pieces joined with `mid` between neighbours. -/
def joined (mid : Text) : List Text → Text
  | [] => []
  | [p] => p
  | p :: q :: ps => p ++ mid ++ joined mid (q :: ps)

/-! ## Lemmas -/

theorem eq_append_of_after? {head t rest : Text} (h : after? head t = some rest) :
    t = head ++ rest := by
  induction head generalizing t with
  | nil => simpa [after?] using h
  | cons c cs ih =>
    cases t with
    | nil => simp [after?] at h
    | cons d ds =>
      simp only [after?] at h
      split at h
      · next hcd => simp [ih h, hcd]
      · simp at h

theorem length_after?_le {head t rest : Text} (h : after? head t = some rest) :
    rest.length ≤ t.length := by
  rw [eq_append_of_after? h, List.length_append]
  omega

theorem afterWord?_length {head t rest : Text} (h : afterWord? head t = some rest) :
    rest.length + head.length = t.length := by
  induction head generalizing t with
  | nil => simp_all [afterWord?]
  | cons c cs ih =>
    cases t with
    | nil => simp [afterWord?] at h
    | cons d ds =>
      simp only [afterWord?] at h
      split at h
      · have := ih h
        simp; omega
      · simp at h

end Text

end Inspector
