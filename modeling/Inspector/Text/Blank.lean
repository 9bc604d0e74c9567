import Inspector.Text.Basic

/-!
# Blank characters

The characters with the Unicode property `White_Space`, and the cuts made at them. Leading and
trailing blanks never count; words are the runs between blanks.

    c.isWhitespace → isBlank c                                        (isBlank_of_isWhitespace)
    (trim t).length ≤ t.length                                        (length_trim_le)
-/

namespace Inspector.Text

/-- The code points with the property `White_Space`, as closed intervals. -/
def blankRanges : List (Nat × Nat) :=
  [(0x09, 0x0D), (0x20, 0x20), (0x85, 0x85), (0xA0, 0xA0), (0x1680, 0x1680), (0x2000, 0x200A),
    (0x2028, 0x2029), (0x202F, 0x202F), (0x205F, 0x205F), (0x3000, 0x3000)]

def isBlank (c : Char) : Bool := blankRanges.any fun r => r.1 ≤ c.toNat && c.toNat ≤ r.2

def trimLeft (t : Text) : Text := t.dropWhile isBlank

def trimRight (t : Text) : Text := (t.reverse.dropWhile isBlank).reverse

/-- The text without the blanks at its two ends. -/
def trim (t : Text) : Text := trimRight (trimLeft t)

/-- The maximal runs of characters that are not blank. -/
def words (t : Text) : List Text := (t.splitOnP isBlank).filter (!·.isEmpty)

/-! ## Lemmas -/

theorem isBlank_of_isWhitespace {c : Char} (h : c.isWhitespace) : isBlank c := by
  simp only [Char.isWhitespace, Bool.or_eq_true, decide_eq_true_eq] at h
  rcases h with ((h | h) | h) | h <;> subst h <;> decide

theorem length_dropWhile_le {α : Type} (p : α → Bool) (l : List α) :
    (l.dropWhile p).length ≤ l.length :=
  (List.dropWhile_sublist p).length_le

theorem length_trimLeft_le (t : Text) : (trimLeft t).length ≤ t.length :=
  length_dropWhile_le isBlank t

theorem length_trimRight_le (t : Text) : (trimRight t).length ≤ t.length := by
  simpa [trimRight] using length_dropWhile_le isBlank t.reverse

theorem length_trim_le (t : Text) : (trim t).length ≤ t.length :=
  Nat.le_trans (length_trimRight_le _) (length_trimLeft_le t)

end Inspector.Text
