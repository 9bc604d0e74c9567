import Inspector.Text.Blank

/-!
# Images

How an image is referred to: bare, in quotes, or in `url(...)`. A class name holds no blanks, so
every run of them becomes an underscore.
-/

namespace Inspector.Fill.Image

open Text

/-- The text inside `url(...)`, or the whole text. -/
def unwrapped (t : Text) : Text :=
  match afterWord? "url(" t with
  | some rest => if rest.getLast? = some ')' then trim rest.dropLast else t
  | none => t

def isQuotedBy (q : Char) (t : Text) : Bool :=
  2 ≤ t.length && t.head? == some q && t.getLast? == some q

/-- The text inside one pair of equal quotes, or the whole text. -/
def unquoted (t : Text) : Text :=
  if isQuotedBy '"' t || isQuotedBy '\'' t then t.tail.dropLast else t

/-- The reference as a class name spells it. -/
def ofText? (value : Text) : Option Text :=
  match words (unquoted (unwrapped (trim value))) with
  | [] => none
  | ws => some (joined "_" ws)

def isSchemeChar (c : Char) : Bool := c.isAlphanum || c = '+' || c = '.' || c = '-'

/-- The text behind a leading `/` or a leading scheme and `://`. -/
def afterRoot? (t : Text) : Option Text :=
  match t with
  | '/' :: rest => some rest
  | c :: rest => if c.isAlpha then after? "://" (rest.dropWhile isSchemeChar) else none
  | [] => none

/-- A reference that needs no key: from the root or with a scheme, and with something behind it. -/
def isBare (t : Text) : Bool :=
  match afterRoot? t with
  | some (c :: _) => !isBlank c
  | _ => false

end Inspector.Fill.Image
