import Inspector.Group

/-!
# Tokens

A property string is a list of segments between the commas outside groups. Segments are trimmed
and empty ones dropped. A segment with exactly one `=` outside groups is a pair; any other is bare,
whatever it holds.

    t ∈ tokenize s → t.text.length ≤ s.length                        (length_text_of_mem_tokenize)
-/

namespace Inspector

open Text

/-- One segment of a property string. -/
inductive Token where
  /-- A value with no key. -/
  | bare (text : Text)
  /-- A key and a value, both trimmed; either may be empty. -/
  | pair (key value : Text)
  deriving DecidableEq, Repr

namespace Token

/-! ## Algorithm -/

/-- The token of a trimmed segment. -/
def ofSegment (segment : Text) : Token :=
  match Group.cut '=' 0 segment with
  | [key, value] => .pair (trim key) (trim value)
  | _ => .bare segment

def key? : Token → Option Text
  | .bare _ => none
  | .pair key _ => some key

/-- The text of a bare token, the value of a pair. -/
def text : Token → Text
  | .bare text => text
  | .pair _ value => value

def isBare : Token → Bool
  | .bare _ => true
  | .pair _ _ => false

/-- The text inside the group that a bare token is. -/
def group? : Token → Option Text
  | .bare text => Group.strip? text
  | .pair _ _ => none

/-- The token as it is written. -/
def written : Token → Text
  | .bare text => text
  | .pair key value => key ++ "=" ++ value

end Token

/-- The tokens of a property string. -/
def tokenize (s : Text) : List Token :=
  (((Group.cut ',' 0 s).map trim).filter (!·.isEmpty)).map Token.ofSegment

/-- The tokens of a property that may be absent. -/
def tokens (s : Option Text) : List Token := s.elim [] tokenize

/-! ## Lemmas -/

theorem Token.length_text_ofSegment (s : Text) : (Token.ofSegment s).text.length ≤ s.length := by
  unfold Token.ofSegment
  split
  · rename_i k v h
    have hv : v ∈ Group.cut '=' 0 s := by simp [h]
    exact Nat.le_trans (length_trim_le v) (Group.length_of_mem_cut hv)
  · exact Nat.le_refl _

theorem length_text_of_mem_tokenize {s : Text} {t : Token} (h : t ∈ tokenize s) :
    t.text.length ≤ s.length := by
  simp only [tokenize, List.mem_map, List.mem_filter] at h
  obtain ⟨p, ⟨⟨q, hq, rfl⟩, _⟩, rfl⟩ := h
  exact Nat.le_trans (Token.length_text_ofSegment _)
    (Nat.le_trans (length_trim_le q) (Group.length_of_mem_cut hq))

theorem Token.length_group? {t : Token} {inner : Text} (h : t.group? = some inner) :
    inner.length + 2 ≤ t.text.length := by
  cases t with
  | bare text => exact Group.length_strip? h
  | pair key value => simp [Token.group?] at h

/-- A group inside a group is shorter. -/
theorem Token.length_nested_lt {value inner nested : Text} {t : Token}
    (hv : Group.strip? value = some inner) (ht : t ∈ tokenize inner)
    (hn : t.group? = some nested) : nested.length < value.length := by
  have h1 := Group.length_strip? hv
  have h2 := length_text_of_mem_tokenize ht
  have h3 := Token.length_group? hn
  omega

theorem tokenize_nil : tokenize [] = [] := by decide

end Inspector
