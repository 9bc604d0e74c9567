import Inspector.Json.Quoted
import Inspector.Yaml.Cursor

/-!
# Scalars of a YAML text

The ways to write a scalar: plain, in quotes of either kind, and as a block. Every reader goes through
the text once, from left to right, and gives the scalar with the place behind it.

White space between the words of a plain or quoted scalar is folded: blanks stay, a break is a space,
and of several breaks in a row the first one is dropped.
-/

namespace Inspector.Yaml

/-- A scalar, whether a new line has begun behind it, and the place come to. -/
structure Scanned where
  text : Text
  atLineStart : Bool
  cursor : Cursor
  deriving DecidableEq, Repr

/-- The scalar with `head` before what has been read. -/
def Scanned.after (head : Text) (s : Scanned) : Scanned := { s with text := head ++ s.text }

/-! ## White space between words -/

/-- What has been passed since the last word: blanks of the line, or a first break and further ones. -/
inductive Gap where
  | blanks (t : Text)
  | breaks (first more : Text)
  deriving DecidableEq, Repr

namespace Gap

def empty : Gap := .blanks []

/-- The gap as the scalar holds it. -/
def folded : Gap → Text
  | .blanks t => t
  | .breaks first more =>
    if first = ['\n'] then if more.isEmpty then [' '] else more else first ++ more

/-- The gap with one more blank; blanks behind a break are indentation. -/
def addBlank (g : Gap) (c : Char) : Gap :=
  match g with
  | .blanks t => .blanks (t ++ [c])
  | .breaks _ _ => g

/-- The gap with one more break; blanks before a break are dropped. -/
def addBreak (g : Gap) (c : Char) : Gap :=
  match g with
  | .blanks _ => .breaks [normalBreak c] []
  | .breaks first more => .breaks first (more ++ [normalBreak c])

def hasBreak : Gap → Bool
  | .blanks _ => false
  | .breaks _ _ => true

end Gap

/-! ## Plain scalars -/

/-- Characters that end a plain scalar in a flow collection. -/
def isFlowIndicator (c : Char) : Bool := [',', '[', ']', '\x7b', '\x7d'].contains c

/-- Whether a plain scalar ends before `c` with `r` behind it. -/
def endsPlain (flow : Bool) (c : Char) (r : Text) : Bool :=
  (c = ':' && startsWhite r) || (flow && isFlowIndicator c)

/-- A colon that is neither an indicator nor part of a plain scalar in a flow collection. -/
def isStrayColon (flow : Bool) (c : Char) (r : Text) : Bool :=
  flow && c = ':' && r.head?.any fun d => d = '?' || isFlowIndicator d

/-- A plain scalar from here on, behind a gap. It ends at an indicator, at a comment, at a document
mark, and, outside flow collections, at a line that is indented less than `indent`. -/
def plain (flow : Bool) (indent : Int) (gap : Gap) (m : Mark) : Text → Option Scanned
  | [] => some ⟨[], gap.hasBreak, ⟨m, []⟩⟩
  | '\r' :: '\n' :: r => plain flow indent (gap.addBreak '\n') (m.newline 2) r
  | c :: r =>
    if isBreak c then plain flow indent (gap.addBreak c) (m.newline 1) r
    else if isSpaceOrTab c then
      if gap.hasBreak && c = '\t' && (m.column : Int) < indent then none
      else plain flow indent (gap.addBlank c) m.next r
    else
      let here : Cursor := ⟨m, c :: r⟩
      let stop := some ⟨[], gap.hasBreak, here⟩
      if gap ≠ .empty ∧ (here.isDocumentMark ∨ c = '#' ∨ !flow ∧ m.column < indent) then stop
      else if isStrayColon flow c r then none
      else if endsPlain flow c r then stop
      else (plain flow indent .empty m.next r).map (.after (gap.folded ++ [c]))

/-! ## Quoted scalars -/

/-- A scalar in single quotes, from here on up to the closing quote; a quote is written twice. -/
def singleQuoted (gap : Gap) (m : Mark) : Text → Option Scanned
  | [] => none
  | '\'' :: '\'' :: r => (singleQuoted .empty (m.skip 2) r).map (.after (gap.folded ++ ['\'']))
  | '\r' :: '\n' :: r => singleQuoted (gap.addBreak '\n') (m.newline 2) r
  | c :: r =>
    if c = '\'' then some ⟨gap.folded, false, ⟨m.next, r⟩⟩
    else if isBreak c then singleQuoted (gap.addBreak c) (m.newline 1) r
    else if isSpaceOrTab c then singleQuoted (gap.addBlank c) m.next r
    else if Cursor.isDocumentMark ⟨m, c :: r⟩ then none
    else (singleQuoted .empty m.next r).map (.after (gap.folded ++ [c]))

/-- The character that an escape of one letter stands for. -/
def shortEscape? (c : Char) : Option Char :=
  [('0', '\x00'), ('a', '\x07'), ('b', '\x08'), ('t', '\t'), ('\t', '\t'), ('n', '\n'),
    ('v', '\x0b'), ('f', '\x0c'), ('r', '\r'), ('e', '\x1b'), (' ', ' '), ('"', '"'), ('/', '/'),
    ('\\', '\\'), ('N', '\u0085'), ('_', '\u00a0'), ('L', '\u2028'), ('P', '\u2029')].lookup c

/-- The number of hexadecimal digits behind an escape that takes any. -/
def escapeWidth? (c : Char) : Option Nat := [('x', 2), ('u', 4), ('U', 8)].lookup c

/-- The number that hexadecimal digits write. -/
def hexNumber? (digits : Text) : Option Nat :=
  digits.foldlM (fun n c => (Json.hexDigit? c).map (n * 16 + ·)) 0

/-- The character of a number that stands for one. -/
def character? (n : Nat) : Option Char :=
  if (0xD800 ≤ n ∧ n ≤ 0xDFFF) ∨ 0x10FFFF < n then none else some (Char.ofNat n)

/-- What an escape with `r` behind its backslash stands for, and how many characters it takes. -/
def escape? (r : Text) : Option (Char × Nat) :=
  match r with
  | [] => none
  | c :: digits =>
    match escapeWidth? c with
    | none => (shortEscape? c).map fun d => (d, 1)
    | some w =>
      if digits.length < w then none
      else ((hexNumber? (digits.take w)).bind character?).map fun d => (d, w + 1)

/-- A scalar in double quotes, from here on up to the closing quote. A backslash before a break joins
the two lines without a space. -/
def doubleQuoted (gap : Gap) (m : Mark) (t : Text) : Option Scanned :=
  match t with
  | [] => none
  | '\r' :: '\n' :: r => doubleQuoted (gap.addBreak '\n') (m.newline 2) r
  | '\\' :: r =>
    if r.head?.any isBreak then
      let line := (Cursor.mk m.next r).newline
      have := Cursor.length_newline_le ⟨m.next, r⟩
      (doubleQuoted (.breaks [] []) line.mark line.rest).map (.after gap.folded)
    else
      match escape? r with
      | none => none
      | some (c, n) =>
        (doubleQuoted .empty (m.skip (n + 1)) (r.drop n)).map (.after (gap.folded ++ [c]))
  | c :: r =>
    if c = '"' then some ⟨gap.folded, false, ⟨m.next, r⟩⟩
    else if isBreak c then doubleQuoted (gap.addBreak c) (m.newline 1) r
    else if isSpaceOrTab c then doubleQuoted (gap.addBlank c) m.next r
    else if Cursor.isDocumentMark ⟨m, c :: r⟩ then none
    else (doubleQuoted .empty m.next r).map (.after (gap.folded ++ [c]))
termination_by t.length
decreasing_by
  all_goals simp only [List.length_cons, List.length_drop] at *
  all_goals omega

/-! ## Block scalars -/

/-- What becomes of the breaks at the end of a block scalar. -/
inductive Chomping where
  | strip
  | clip
  | keep
  deriving DecidableEq, Repr

/-- How a block scalar is to be read. -/
structure Block where
  /-- Whether breaks stay, or single breaks between unindented lines become spaces. -/
  literal : Bool
  chomping : Chomping
  /-- The least indentation that the lines may have. -/
  floor : Nat
  deriving DecidableEq, Repr

/-- What has been passed since the last line of content: whether that line began with a blank, the
break that ended it, and the empty lines since. -/
structure Pending where
  indented : Bool
  ending : Text
  empty : Text
  deriving DecidableEq, Repr

def Pending.addBreak (p : Pending) (c : Char) : Pending :=
  { p with empty := p.empty ++ [normalBreak c] }

/-- The breaks before a further line of content. -/
def Block.between (b : Block) (p : Pending) (indented : Bool) : Text :=
  if !b.literal && p.ending = ['\n'] && !p.indented && !indented then
    if p.empty.isEmpty then [' '] else p.empty
  else p.ending ++ p.empty

/-- The breaks behind the last line of content. -/
def Block.final (b : Block) (p : Pending) : Text :=
  match b.chomping with
  | .strip => []
  | .clip => p.ending
  | .keep => p.ending ++ p.empty

mutual

/-- A block scalar from the start of a line, or from within its indentation. The indentation of the
scalar, if it is 0 so far, is that of the first line of content or of a longer empty line before. -/
def blockIndent (b : Block) (indent widest : Nat) (p : Pending) (m : Mark) : Text → Option Scanned
  | [] => some ⟨b.final p, true, ⟨m, []⟩⟩
  | '\r' :: '\n' :: r =>
    blockIndent b indent (max widest m.column) (p.addBreak '\n') (m.newline 2) r
  | c :: r =>
    if isBreak c then blockIndent b indent (max widest m.column) (p.addBreak c) (m.newline 1) r
    else if isSpaceOrTab c && (indent = 0 || m.column < indent) then
      if c = '\t' then none else blockIndent b indent widest p m.next r
    else
      let found := if indent = 0 then max b.floor (max widest m.column) else indent
      if m.column = found then
        (blockLine b found (isSpaceOrTab c) m.next r).map
          (.after (b.between p (isSpaceOrTab c) ++ [c]))
      else some ⟨b.final p, true, ⟨m, c :: r⟩⟩

/-- A block scalar from within a line of content. -/
def blockLine (b : Block) (indent : Nat) (indented : Bool) (m : Mark) : Text → Option Scanned
  | [] => some ⟨b.final ⟨indented, [], []⟩, true, ⟨m, []⟩⟩
  | '\r' :: '\n' :: r => blockIndent b indent 0 ⟨indented, ['\n'], []⟩ (m.newline 2) r
  | c :: r =>
    if isBreak c then blockIndent b indent 0 ⟨indented, [normalBreak c], []⟩ (m.newline 1) r
    else (blockLine b indent indented m.next r).map (.after [c])

end

/-- A sign of chomping in the header of a block scalar. -/
def chomping? (c : Char) : Option Chomping :=
  if c = '+' then some .keep else if c = '-' then some .strip else none

/-- A digit of indentation in the header of a block scalar, of which 0 is none. -/
def indentation? (c : Char) : Option Nat :=
  if c.isDigit && c ≠ '0' then some (c.toNat - '0'.toNat) else none

/-- The signs behind the indicator of a block scalar, in either order. -/
def blockSigns (c : Cursor) : Chomping × Option Nat × Cursor :=
  match c.rest with
  | a :: b :: _ =>
    match chomping? a, indentation? b, indentation? a, chomping? b with
    | some k, some n, _, _ => (k, some n, c.skip 2)
    | _, _, some n, some k => (k, some n, c.skip 2)
    | some k, _, _, _ => (k, none, c.skip 1)
    | _, _, some n, _ => (.clip, some n, c.skip 1)
    | _, _, _, _ => (.clip, none, c)
  | [a] => (((chomping? a).getD .clip), indentation? a,
      if (chomping? a).isSome || (indentation? a).isSome then c.skip 1 else c)
  | [] => (.clip, none, c)

/-- A comment, if there is one, which reaches to the end of the line. -/
def skipComment (c : Cursor) : Cursor :=
  if c.rest.head? = some '#' then (c.span (!isBreak ·)).2 else c

/-- The start of the next line, if nothing but blanks and a comment is left of this one. -/
def restOfLine? (c : Cursor) : Option Cursor :=
  let c := skipComment (c.span isSpaceOrTab).2
  if startsBreak c.rest then some c.newline else none

/-- A block scalar behind its indicator, inside a collection of indentation `parent`. -/
def blockScalar (literal : Bool) (parent : Int) (c : Cursor) : Option Scanned :=
  let (chomping, increment, c) := blockSigns c
  let indent := increment.elim 0 (· + parent.toNat)
  let block : Block := ⟨literal, chomping, max 1 (parent + 1).toNat⟩
  (restOfLine? c).bind fun c => blockIndent block indent 0 ⟨false, [], []⟩ c.mark c.rest

end Inspector.Yaml
