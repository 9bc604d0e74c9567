import Inspector.Text.Basic

/-!
# Characters and places of a YAML text

The classes of characters that the format tells apart, and the place in a text: the characters
passed, the line, and the column, which decides about indentation.
-/

namespace Inspector.Yaml

/-! ## Characters -/

/-- A line ends at a line feed, a carriage return, a next-line character, or a separator of lines or
paragraphs; a carriage return and a line feed in a row end one line. -/
def isBreak (c : Char) : Bool :=
  c = '\n' || c = '\r' || c = '\u0085' || c = '\u2028' || c = '\u2029'

def isSpaceOrTab (c : Char) : Bool := c = ' ' || c = '\t'

def isWhite (c : Char) : Bool := isSpaceOrTab c || isBreak c

/-- A text that begins with a white character, or is at its end. -/
def startsWhite (t : Text) : Bool :=
  match t with
  | [] => true
  | c :: _ => isWhite c

/-- A text that begins with a break, or is at its end. -/
def startsBreak (t : Text) : Bool :=
  match t with
  | [] => true
  | c :: _ => isBreak c

/-- A character of the names of anchors, directives and tag handles. -/
def isWordChar (c : Char) : Bool := c.isAlphanum || c = '_' || c = '-'

/-- A character that a text may hold at all. -/
def isAdmitted (c : Char) : Bool :=
  let n := c.toNat
  n = 0x09 || n = 0x0A || n = 0x0D || (0x20 ≤ n && n ≤ 0x7E) || n = 0x85 ||
    (0xA0 ≤ n && n ≤ 0xD7FF) || (0xE000 ≤ n && n ≤ 0xFFFD) || 0x10000 ≤ n

/-- A break as scalars hold it: the separators as they are, any other as a line feed. -/
def normalBreak (c : Char) : Char := if c = '\u2028' ∨ c = '\u2029' then c else '\n'

/-! ## Places -/

structure Mark where
  index : Nat := 0
  line : Nat := 0
  column : Nat := 0
  deriving DecidableEq, Repr

/-- The place behind one more character of the line. -/
def Mark.next (m : Mark) : Mark := { m with index := m.index + 1, column := m.column + 1 }

/-- The place behind `n` more characters of the line. -/
def Mark.skip (m : Mark) (n : Nat) : Mark :=
  { m with index := m.index + n, column := m.column + n }

/-- The start of the next line, behind a break of `width` characters. -/
def Mark.newline (m : Mark) (width : Nat) : Mark :=
  { index := m.index + width, line := m.line + 1, column := 0 }

/-- A place and the text from there on. -/
structure Cursor where
  mark : Mark
  rest : Text
  deriving DecidableEq, Repr

/-- The place `n` characters on, in the same line. -/
def Cursor.skip (c : Cursor) (n : Nat) : Cursor := ⟨c.mark.skip n, c.rest.drop n⟩

/-- The longest run of characters of the line with a property, and the place behind it. -/
def Cursor.span (c : Cursor) (p : Char → Bool) : Text × Cursor :=
  (c.rest.takeWhile p, c.skip (c.rest.takeWhile p).length)

/-- The place behind a break. -/
def Cursor.newline (c : Cursor) : Cursor :=
  match c.rest with
  | '\r' :: '\n' :: r => ⟨c.mark.newline 2, r⟩
  | b :: r => if isBreak b then ⟨c.mark.newline 1, r⟩ else c
  | [] => c

theorem Cursor.length_newline_le (c : Cursor) : c.newline.rest.length ≤ c.rest.length := by
  unfold Cursor.newline
  split
  · next h => simp [h]; omega
  · next h => split <;> simp [h]
  · simp

/-- Whether the place is at the start of a line that marks the start or the end of a document. -/
def Cursor.isDocumentMark (c : Cursor) : Bool :=
  c.mark.column = 0 &&
    match c.rest with
    | '-' :: '-' :: '-' :: r => startsWhite r
    | '.' :: '.' :: '.' :: r => startsWhite r
    | _ => false

end Inspector.Yaml
