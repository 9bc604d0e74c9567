import Inspector.Yaml.Tag

/-!
# Tokens of a YAML text

Indentation and indicators are read into tokens that open and close mappings. Whether a scalar is
the key of a mapping is known only at the colon behind it: each place where a key may start is kept,
and the key's token is put in there once its colon comes. A key without `?` stays on one line and is
at most 1024 characters long.

Lists have no tokens: what is read here are mappings of scalars, and a text with a list is refused.
-/

namespace Inspector.Yaml

inductive Token where
  | directive (d : Directive)
  | documentStart
  | documentEnd
  | blockStart
  | blockEnd
  | flowStart
  | flowEnd
  | comma
  | key
  | value
  | alias (name : Text)
  | anchor (name : Text)
  | tag (t : Tag)
  | scalar (text : Text) (plain : Bool)
  /-- The end of the text. -/
  | finish
  deriving DecidableEq, Repr

/-- A place where a key may have started. -/
structure SimpleKey where
  /-- Whether a mapping that is open needs a key here. -/
  required : Bool
  /-- The number of tokens before it. -/
  position : Nat
  mark : Mark
  deriving DecidableEq, Repr

/-- The tokens read so far, the last one first, and what decides about the next ones. -/
structure Scanner where
  cursor : Cursor
  tokens : List Token := []
  /-- The indentations of the open block mappings, the innermost first. -/
  indents : List Nat := []
  /-- Whether a key may start here. -/
  allowed : Bool := true
  key : Option SimpleKey := none
  /-- The keys of the collections around the open flow mappings, one for each. -/
  outerKeys : List (Option SimpleKey) := []
  deriving DecidableEq, Repr

namespace Scanner

/-! ## Blanks -/

/-- The place of the next token, and whether a key may start there. Blanks and comments are skipped;
a tab counts as a blank where it cannot be indentation, and a byte order mark at the start of a
line. -/
def skipBlanks (flow allowed comment : Bool) (m : Mark) : Text → Bool × Cursor
  | [] => (allowed, ⟨m, []⟩)
  | '\r' :: '\n' :: r => skipBlanks flow (allowed || !flow) false (m.newline 2) r
  | c :: r =>
    if isBreak c then skipBlanks flow (allowed || !flow) false (m.newline 1) r
    else if comment || c = '#' then skipBlanks flow allowed true m.next r
    else if c = ' ' || (c = '\t' && (flow || !allowed)) || (c = '\ufeff' && m.column = 0) then
      skipBlanks flow allowed false m.next r
    else (allowed, ⟨m, c :: r⟩)

/-! ## Steps -/

def isFlow (s : Scanner) : Bool := !s.outerKeys.isEmpty

/-- The indentation of the innermost block mapping, or -1 outside of all. -/
def indent (s : Scanner) : Int := s.indents.head?.elim (-1) Int.ofNat

/-- One more token, and the place behind it. -/
def put (s : Scanner) (t : Token) (c : Cursor) : Scanner :=
  { s with tokens := t :: s.tokens, cursor := c }

/-- A token put in behind the first `position` ones. -/
def insert (s : Scanner) (position : Nat) (t : Token) : Scanner :=
  { s with tokens := s.tokens.insertIdx (s.tokens.length - position) t }

/-- Block mappings closed while they are indented more than `column`. -/
def closeBlocks (s : Scanner) (column : Int) : Scanner :=
  if s.isFlow then s
  else
    let closed := s.indents.takeWhile fun (i : Nat) => column < i
    { s with
      tokens := closed.map (fun _ => .blockEnd) ++ s.tokens
      indents := s.indents.drop closed.length }

/-- A block mapping opened at `column`, if none is there, with its token behind `position` ones. -/
def openBlock (s : Scanner) (column position : Nat) : Scanner :=
  if s.isFlow || (column : Int) ≤ s.indent then s
  else { s.insert position .blockStart with indents := column :: s.indents }

/-- Whether a key that started at `k` can no longer have its colon here. -/
def isStale (s : Scanner) (k : SimpleKey) : Bool :=
  k.mark.line < s.cursor.mark.line || k.mark.index + 1024 < s.cursor.mark.index

/-- Stale keys given up, of which none may be required. -/
def dropStale (s : Scanner) : Option Scanner :=
  let fresh (key : Option SimpleKey) : Option SimpleKey := key.filter (!s.isStale ·)
  if (s.key :: s.outerKeys).any (·.any fun k => k.required && s.isStale k) then none
  else some { s with key := fresh s.key, outerKeys := s.outerKeys.map fresh }

/-- The key that may have started given up, which may not be required. -/
def dropKey (s : Scanner) : Option Scanner :=
  if s.key.any (·.required) then none else some { s with key := none }

/-- The next token may start a key. -/
def keepKey (s : Scanner) : Option Scanner :=
  if s.allowed then do
    let required := !s.isFlow && s.indent = s.cursor.mark.column
    return { ← s.dropKey with key := some ⟨required, s.tokens.length, s.cursor.mark⟩ }
  else some s

/-- A `?` or `:` that no simple key explains, at which outside flow mappings a key may start. -/
def openEntry (s : Scanner) : Option Scanner :=
  if s.isFlow then some s
  else if s.allowed then some (s.openBlock s.cursor.mark.column s.tokens.length)
  else none

/-! ## Tokens -/

def documentMark (s : Scanner) (t : Token) : Option Scanner := do
  let s ← (s.closeBlocks (-1)).dropKey
  return { s.put t (s.cursor.skip 3) with allowed := false }

def directive (s : Scanner) : Option Scanner := do
  let s ← (s.closeBlocks (-1)).dropKey
  let (d, c) ← directive? s.cursor
  return { s.put (.directive d) c with allowed := false }

def flowStart (s : Scanner) : Option Scanner := do
  let s ← s.keepKey
  return { s.put .flowStart (s.cursor.skip 1) with
    allowed := true, key := none, outerKeys := s.key :: s.outerKeys }

def flowEnd (s : Scanner) : Option Scanner := do
  let s ← s.dropKey
  match s.outerKeys with
  | [] => none
  | key :: outer =>
    return { s.put .flowEnd (s.cursor.skip 1) with allowed := false, key, outerKeys := outer }

def comma (s : Scanner) : Option Scanner := do
  let s ← s.dropKey
  if s.isFlow then return { s.put .comma (s.cursor.skip 1) with allowed := true }
  none

def explicitKey (s : Scanner) : Option Scanner := do
  let s ← (← s.openEntry).dropKey
  return { s.put .key (s.cursor.skip 1) with allowed := !s.isFlow }

def value (s : Scanner) : Option Scanner :=
  match s.key with
  | some k =>
    let s := (s.insert k.position .key).openBlock k.mark.column k.position
    some { s.put .value (s.cursor.skip 1) with allowed := false, key := none }
  | none => do
    let s ← s.openEntry
    return { s.put .value (s.cursor.skip 1) with allowed := !s.isFlow }

/-- Whether the name of an anchor or an alias may end before the rest of the text. -/
def endsName (t : Text) : Bool := startsWhite t || t.head?.any ("?:,]\x7d%@`" : Text).contains

/-- An anchor or an alias, behind its indicator. -/
def name (s : Scanner) (token : Text → Token) : Option Scanner := do
  let s ← s.keepKey
  let (word, c) := (s.cursor.skip 1).span isWordChar
  if word.isEmpty || !endsName c.rest then none
  else return { s.put (token word) c with allowed := false }

def tag (s : Scanner) : Option Scanner := do
  let s ← s.keepKey
  let (t, c) ← tag? s.cursor
  if startsWhite c.rest || (s.isFlow && c.rest.head? = some ',') then
    return { s.put (.tag t) c with allowed := false }
  none

def block (s : Scanner) (literal : Bool) : Option Scanner := do
  let s ← s.dropKey
  let b ← blockScalar literal s.indent (s.cursor.skip 1)
  return { s.put (.scalar b.text false) b.cursor with allowed := true }

def quoted (s : Scanner) (double : Bool) : Option Scanner := do
  let s ← s.keepKey
  let c := s.cursor.skip 1
  let q ← if double then doubleQuoted .empty c.mark c.rest else singleQuoted .empty c.mark c.rest
  return { s.put (.scalar q.text false) q.cursor with allowed := false }

def plain (s : Scanner) : Option Scanner := do
  let s ← s.keepKey
  let p ← Yaml.plain s.isFlow (s.indent + 1) .empty s.cursor.mark s.cursor.rest
  return { s.put (.scalar p.text true) p.cursor with allowed := p.atLineStart }

/-- Whether a plain scalar may start with `c`, with `r` behind it. -/
def startsPlain (flow : Bool) (c : Char) (r : Text) : Bool :=
  if c = '-' then !startsWhite r
  else if c = '?' || c = ':' then !flow && !startsWhite r
  else !(isWhite c || (",[]\x7b\x7d#&*!|>'\"%@`" : Text).contains c)

/-- The token that starts with `c`, with `r` behind it. -/
def token (s : Scanner) (c : Char) (r : Text) : Option Scanner :=
  if c = '%' && s.cursor.mark.column = 0 then s.directive
  else if s.cursor.isDocumentMark then
    s.documentMark (if c = '-' then .documentStart else .documentEnd)
  else if c = '\x7b' then s.flowStart
  else if c = '\x7d' then s.flowEnd
  else if c = ',' then s.comma
  else if c = '?' && (s.isFlow || startsWhite r) then s.explicitKey
  else if c = ':' && (s.isFlow || startsWhite r) then s.value
  else if c = '*' then s.name .alias
  else if c = '&' then s.name .anchor
  else if c = '!' then s.tag
  else if (c = '|' || c = '>') && !s.isFlow then s.block (c = '|')
  else if c = '\'' || c = '"' then s.quoted (c = '"')
  else if startsPlain s.isFlow c r then s.plain
  else none

/-- All tokens, at the end of the text. -/
def finish (s : Scanner) : Option (List Token) := do
  let s ← (s.closeBlocks (-1)).dropKey
  return (.finish :: s.tokens).reverse

/-- The place of the next token, with keys and block mappings given up that cannot go on there. -/
def advance (s : Scanner) : Option Scanner := do
  let (allowed, cursor) := skipBlanks s.isFlow s.allowed false s.cursor.mark s.cursor.rest
  let s ← { s with allowed, cursor }.dropStale
  return s.closeBlocks cursor.mark.column

/-- The tokens of the text from here on. Every token takes some of the text. -/
def scan (s : Scanner) : Option (List Token) :=
  match s.advance with
  | none => none
  | some a =>
    match a.cursor.rest with
    | [] => a.finish
    | c :: r =>
      match a.token c r with
      | none => none
      | some b => if b.cursor.rest.length < s.cursor.rest.length then scan b else none
termination_by s.cursor.rest.length

end Scanner

/-- The tokens of a text, which may hold admitted characters only. -/
def tokens? (t : Text) : Option (List Token) :=
  if t.all isAdmitted then Scanner.scan { cursor := ⟨{}, t⟩ } else none

end Inspector.Yaml
