import Inspector.Bundle
import Inspector.Color
import Inspector.Fragment

/-!
# Entries of a stroke

What the tokens of a stroke ask for: a color, an opacity, a position, a style, and weights, of the
whole stroke or of one side. A bundle of weights is flattened to its sides. Each token is read on
its own; whether a value is valid is decided when the entry is applied.
-/

namespace Inspector.Stroke

open Text

inductive Side where
  | top
  | right
  | bottom
  | left
  deriving DecidableEq, Repr

namespace Side

/-- The order in which a bundle gives the sides. -/
def order : List Side := [.top, .right, .bottom, .left]

def aliases : Side → List Text
  | .top => ["top", "t", "↑"]
  | .right => ["right", "r", "→"]
  | .bottom => ["bottom", "b", "↓"]
  | .left => ["left", "l", "←"]

def short : Side → Text
  | .top => "t"
  | .right => "r"
  | .bottom => "b"
  | .left => "l"

def parts : Parts Side where
  order := order
  aliases := aliases

end Side

/-- Advice about a token that asks for nothing. -/
inductive Unread where
  | key (key : Text)
  | token (text : Text)
  | side (key : Text)
  | surplus (text : Text)
  deriving DecidableEq, Repr

inductive Entry where
  | color (value : Text)
  | opacity (value : Text)
  | position (value : Text)
  | style (value : Text)
  /-- The weight of all sides. -/
  | uniform (value : Text)
  | side (side : Side) (value : Text)
  | unread (u : Unread)
  deriving DecidableEq, Repr

namespace Entry

def ofBundle : Bundle.Entry Side → Entry
  | .value s value => .side s value
  | .unknown key => .unread (.side key)
  | .surplus text => .unread (.surplus text)

/-- The side of a key such as `weight-top` or `width-t`. -/
def sideOfKey? (key : Text) : Option Side :=
  ((after? "weight-" key).or (after? "width-" key)).bind Side.parts.ofName?

def ofPair (key value : Text) : List Entry :=
  if key = "color" then [.color value]
  else if key = "opacity" then [.opacity value]
  else if key = "position" ∨ key = "align" then [.position value]
  else if key = "weight" ∨ key = "width" then
    match Group.strip? value with
    | some inner => (Bundle.entries Side.parts inner).map ofBundle
    | none => [.uniform value]
  else if key = "style" then [.style value]
  else
    match sideOfKey? key with
    | some s => [.side s value]
    | none => [.unread (.key key)]

/-- The entries of a token; keys count in any case. -/
def ofToken : Token → List Entry
  | .bare text =>
    if (Fragment.pixels? text).isSome then [.uniform text]
    else if (Color.ofText? text "border").isSome then [.color text]
    else [.unread (.token text)]
  | .pair key value => ofPair (lower key) value

end Entry

end Inspector.Stroke
