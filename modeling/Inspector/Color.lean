import Inspector.Text.Blank

/-!
# Colors

A color is a hexadecimal code, a shade of the palette, the alias of a layer, or a class name that
already carries the lead (`bg` or `border`) of the property it is given to.
-/

namespace Inspector

open Text

/-- A color as fills and strokes accept it. -/
inductive Color where
  /-- `#rgb` or `#rrggbb`, in lower case. -/
  | hex (code : Text)
  /-- A shade of the palette, such as `blue-500`, or a color without shades. -/
  | palette (name : Text)
  /-- An alias such as `layer-surface`. -/
  | layer (name : Text)
  /-- A class name that carries the lead. -/
  | classToken (token : Text)
  deriving DecidableEq, Repr

namespace Color

def hues : List Text :=
  ["slate", "gray", "zinc", "neutral", "stone", "red", "orange", "amber", "yellow", "lime",
    "green", "emerald", "teal", "cyan", "sky", "blue", "indigo", "violet", "purple", "fuchsia",
    "pink", "rose"]

def shades : List Text :=
  ["50", "100", "200", "300", "400", "500", "600", "700", "800", "900", "950"]

/-- Colors without shades. -/
def plain : List Text := ["white", "black", "transparent", "current", "inherit"]

def isHexDigit (c : Char) : Bool :=
  c.isDigit || ('a' ≤ c && c ≤ 'f') || ('A' ≤ c && c ≤ 'F')

def isHex (t : Text) : Bool :=
  match t with
  | '#' :: code => (code.length == 3 || code.length == 6) && code.all isHexDigit
  | _ => false

def isPalette (t : Text) : Bool :=
  plain.contains t ||
    hues.any fun hue => ((after? hue t).bind (after? "-")).any shades.contains

def isLayerChar (c : Char) : Bool := ('a' ≤ c && c ≤ 'z') || c.isDigit

def isLayer (t : Text) : Bool :=
  match after? "layer-" t with
  | some (c :: r) => isLayerChar c && r.all fun d => isLayerChar d || d = '-'
  | _ => false

def isClassChar (c : Char) : Bool := c.isAlphanum || "[]#/._%()-".toList.contains c

/-- The color that a text is, blanks at its ends aside. -/
def ofText? (value lead : Text) : Option Color :=
  let t := trim value
  if isHex t then some (.hex (lower t))
  else if isPalette t then some (.palette t)
  else if isLayer t then some (.layer t)
  else
    match (after? lead t).bind (after? "-") with
    | some tail => if !tail.isEmpty && tail.all isClassChar then some (.classToken t) else none
    | none => none

/-- The class name of a color under a lead. -/
def classFor (lead : Text) : Color → Text
  | .hex code => lead ++ "-[" ++ code ++ "]"
  | .palette name => lead ++ "-" ++ name
  | .layer name => lead ++ "-" ++ name
  | .classToken token => token

end Color

end Inspector
