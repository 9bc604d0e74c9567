import Inspector.Text.Blank

/-!
# Groups

Round, curly and square brackets group a part of a text. One counter serves all three kinds: an
opener adds one, a closer takes one away, and a closer with nothing open leaves it at zero.

    strip? t = some inner → inner.length + 2 ≤ t.length                         (length_strip?)
    p ∈ cut sep depth t → p.length ≤ t.length                                   (length_of_mem_cut)
-/

namespace Inspector.Group

open Text

/-! ## Algorithm -/

def isOpener (c : Char) : Bool := c = '(' || c = '{' || c = '['

def isCloser (c : Char) : Bool := c = ')' || c = '}' || c = ']'

/-- The closer of the same kind. -/
def closerOf? (c : Char) : Option Char :=
  if c = '(' then some ')' else if c = '{' then some '}' else if c = '[' then some ']' else none

/-- The depth after `c`; a closer at depth zero leaves it there. -/
def shift (depth : Nat) (c : Char) : Nat :=
  if isOpener c then depth + 1 else if isCloser c then depth - 1 else depth

/-- The depth after a whole text. -/
def depthAfter (depth : Nat) (t : Text) : Nat := t.foldl shift depth

/-- Whether the depth stays positive throughout `t`. -/
def staysOpen (depth : Nat) : Text → Bool
  | [] => true
  | c :: r => 0 < shift depth c && staysOpen (shift depth c) r

/-- The text inside one group that wraps the whole value: the last character has the kind of the
first, and no closer before it brings the depth back to zero. The text inside is not trimmed. -/
def strip? (value : Text) : Option Text :=
  match trim value with
  | [] => none
  | o :: rest =>
    match closerOf? o, rest.getLast? with
    | some c, some l =>
      if l = c && staysOpen 1 rest.dropLast then some rest.dropLast else none
    | _, _ => none

/-- The text inside a group that follows `name`, as in `name{...}`; blanks may stand around both. -/
def stripNamed? (name value : Text) : Option Text :=
  (afterWord? name (trim value)).bind strip?

/-- The pieces of a text between the separators that stand at depth zero. -/
def cut (sep : Char) (depth : Nat) : Text → List Text
  | [] => [[]]
  | c :: r =>
    if c = sep ∧ depth = 0 then [] :: cut sep 0 r
    else
      match cut sep (shift depth c) r with
      | [] => [[c]]
      | p :: ps => (c :: p) :: ps

/-! ## Lemmas -/

theorem length_strip? {value inner : Text} (h : strip? value = some inner) :
    inner.length + 2 ≤ value.length := by
  have ht := length_trim_le value
  unfold strip? at h
  split at h
  · simp at h
  · rename_i o rest hv
    rw [hv] at ht
    split at h
    · rename_i c l _ hl
      split at h
      · have hne : rest ≠ [] := by rintro rfl; simp at hl
        have := List.length_pos_iff.2 hne
        simp only [Option.some.injEq] at h
        subst h
        simp only [List.length_cons, List.length_dropLast] at ht ⊢
        omega
      · simp at h
    · simp at h

theorem length_of_mem_cut {sep : Char} {depth : Nat} {t p : Text} (h : p ∈ cut sep depth t) :
    p.length ≤ t.length := by
  induction t generalizing depth p with
  | nil => simp [cut] at h; simp [h]
  | cons c r ih =>
    simp only [cut] at h
    split at h
    · rcases List.mem_cons.1 h with rfl | h
      · simp
      · exact Nat.le_succ_of_le (ih h)
    · have inRest : ∀ q ∈ cut sep (shift depth c) r, q.length ≤ r.length := fun q hq => ih hq
      split at h
      · simp at h; simp [h]
      · rename_i q qs hq
        rw [hq] at inRest
        rcases List.mem_cons.1 h with rfl | h
        · simpa using inRest q (by simp)
        · exact Nat.le_succ_of_le (inRest p (by simp [h]))

end Inspector.Group
