import Inspector.Yaml.Scalar

/-!
# Tags and directives of a YAML text

A tag names the kind of a node. It is written in full, `!<kind>`, or by a handle and what stands behind
it, `!local`, `!!str` or `!e!kind`. A directive at the top of a document says what a handle stands
for, or which version of the format the document follows.
-/

namespace Inspector.Yaml

/-- A tag as it is written; one in full has no handle. -/
structure Tag where
  handle : Text
  suffix : Text
  deriving DecidableEq, Repr

inductive Directive where
  | version (major minor : Nat)
  | handle (name start : Text)
  deriving DecidableEq, Repr

/-! ## Octets -/

/-- A character of a tag; commas and brackets count where nothing else can be meant. -/
def isUriChar (anywhere : Bool) (c : Char) : Bool :=
  isWordChar c || (";/?:@&=+$.!~*'()%" : Text).contains c || (anywhere && (",[]" : Text).contains c)

/-- The number of octets that follow the first octet of a character. -/
def trailingOctets? (octet : Nat) : Option Nat :=
  if octet < 0x80 then some 0
  else if octet < 0xC0 then none
  else if octet < 0xE0 then some 1
  else if octet < 0xF0 then some 2
  else if octet < 0xF8 then some 3
  else none

/-- Escapes `%XX` replaced by their octets, of which the next `due` have to continue a character. -/
def unescaped? (due : Nat) : Text → Option Text
  | [] => if due = 0 then some [] else none
  | '%' :: a :: b :: r => do
    let octet ← hexNumber? [a, b]
    let due ←
      if due = 0 then trailingOctets? octet
      else if 0x80 ≤ octet ∧ octet < 0xC0 then some (due - 1)
      else none
    return Char.ofNat octet :: (← unescaped? due r)
  | c :: r => if due = 0 ∧ c ≠ '%' then (unescaped? 0 r).map (c :: ·) else none

/-- A run of the characters of a tag, escapes replaced; an octet 0 ends what counts of it. -/
def uri? (anywhere : Bool) (c : Cursor) : Option (Text × Cursor) := do
  let (raw, rest) := c.span (isUriChar anywhere)
  return ((← unescaped? 0 raw).takeWhile (· ≠ '\x00'), rest)

/-- A run as before that is not empty. -/
def uriSome? (anywhere : Bool) (c : Cursor) : Option (Text × Cursor) :=
  if c.rest.head?.any (isUriChar anywhere) then uri? anywhere c else none

/-! ## Tags -/

/-- A tag from its `!` on. A tag of a `!` alone is its own name. -/
def tag? (c : Cursor) : Option (Tag × Cursor) := do
  let c := c.skip 1
  if c.rest.head? = some '<' then
    let (suffix, d) ← uriSome? true (c.skip 1)
    if d.rest.head? = some '>' then return (⟨[], suffix⟩, d.skip 1)
    none
  else
    let (word, d) := c.span isWordChar
    if d.rest.head? = some '!' then
      let (suffix, e) ← uriSome? false (d.skip 1)
      return (⟨'!' :: word ++ ['!'], suffix⟩, e)
    let (more, e) ← uri? false d
    return (if word.isEmpty ∧ more.isEmpty then ⟨[], ['!']⟩ else ⟨['!'], word ++ more⟩, e)

/-! ## Directives -/

/-- A number of up to nine digits. -/
def versionNumber? (c : Cursor) : Option (Nat × Cursor) :=
  let (digits, rest) := c.span Char.isDigit
  if digits.isEmpty ∨ 9 < digits.length then none
  else some (digits.foldl (fun n d => n * 10 + (d.toNat - '0'.toNat)) 0, rest)

def version? (c : Cursor) : Option (Directive × Cursor) := do
  let (major, c) ← versionNumber? c
  if c.rest.head? ≠ some '.' then none
  let (minor, c) ← versionNumber? (c.skip 1)
  return (.version major minor, c)

/-- The handle that a directive declares: `!`, or a word, which may be empty, between two of them. -/
def handle? (c : Cursor) : Option (Text × Cursor) :=
  if c.rest.head? ≠ some '!' then none
  else
    let (word, d) := (c.skip 1).span isWordChar
    if d.rest.head? = some '!' then some ('!' :: word ++ ['!'], d.skip 1)
    else if word.isEmpty then some (['!'], d)
    else none

def handleDirective? (c : Cursor) : Option (Directive × Cursor) := do
  let (name, c) ← handle? c
  if !c.rest.head?.any isSpaceOrTab then none
  let (start, c) ← uriSome? true (c.span isSpaceOrTab).2
  if startsWhite c.rest then return (.handle name start, c)
  none

/-- A directive from its `%` on, with the line it stands in. -/
def directive? (c : Cursor) : Option (Directive × Cursor) := do
  let (name, c) := (c.skip 1).span isWordChar
  if !startsWhite c.rest then none
  let c := (c.span isSpaceOrTab).2
  let (directive, c) ←
    if name = "YAML".toList then version? c
    else if name = "TAG".toList then handleDirective? c
    else none
  return (directive, ← restOfLine? c)

end Inspector.Yaml
