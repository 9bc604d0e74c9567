import Inspector.Bundle
import Inspector.Fragment
import Inspector.Toggle

/-!
# Entries of an appearance

What the tokens of an appearance ask for: visibility, opacity, and corner radii, of all corners or
of one. A bundle of radii is flattened to its corners.
-/

namespace Inspector.Appearance

open Text

inductive Corner where
  | topLeft
  | topRight
  | bottomRight
  | bottomLeft
  deriving DecidableEq, Repr

namespace Corner

/-- The order in which a bundle gives the corners. -/
def order : List Corner := [.topLeft, .topRight, .bottomRight, .bottomLeft]

def aliases : Corner → List Text
  | .topLeft => ["top-left", "tl", "↖"]
  | .topRight => ["top-right", "tr", "↗"]
  | .bottomRight => ["bottom-right", "br", "↘"]
  | .bottomLeft => ["bottom-left", "bl", "↙"]

def short : Corner → Text
  | .topLeft => "tl"
  | .topRight => "tr"
  | .bottomRight => "br"
  | .bottomLeft => "bl"

/-- A radius given by key may stand in a group of its own. -/
def parts : Parts Corner where
  order := order
  aliases := aliases
  unwrapped := fun value => (Group.strip? value).getD value

end Corner

/-- Advice about a token that asks for nothing. -/
inductive Unread where
  | key (key : Text)
  | token (text : Text)
  | corner (key : Text)
  | surplus (text : Text)
  | smoothing
  deriving DecidableEq, Repr

inductive Entry where
  | visible
  | hidden
  /-- A visibility that says neither. -/
  | unclear (value : Text)
  | opacity (value : Text)
  /-- The radius of all corners. -/
  | uniform (value : Text)
  | corner (corner : Corner) (value : Text)
  | unread (u : Unread)
  deriving DecidableEq, Repr

namespace Entry

/-- `visible`, `hidden` or a toggle word. -/
def isVisible? (value : Text) : Option Bool :=
  let word := lower (trim value)
  if word = "visible" then some true
  else if word = "hidden" ∨ word = "invisible" then some false
  else toggle? word

def ofVisibility (value : Text) : Entry :=
  match isVisible? value with
  | some true => .visible
  | some false => .hidden
  | none => .unclear value

def ofBundle : Bundle.Entry Corner → Entry
  | .value k value => .corner k value
  | .unknown key => .unread (.corner key)
  | .surplus text => .unread (.surplus text)

/-- The corner of a key such as `radius-tl` or `rounded-top-left`. -/
def cornerOfKey? (key : Text) : Option Corner :=
  (((after? "radius-" key).or (after? "corner-radius-" key)).or (after? "rounded-" key)).bind
    Corner.parts.ofName?

def ofPair (key value : Text) : List Entry :=
  if key = "visible" ∨ key = "visibility" then [ofVisibility value]
  else if key = "opacity" then [.opacity value]
  else if key = "radius" ∨ key = "corner-radius" ∨ key = "rounded" then
    match Group.strip? value with
    | some inner => (Bundle.entries Corner.parts inner).map ofBundle
    | none => [.uniform value]
  else if key = "corner-smoothing" ∨ key = "smoothing" then [.unread .smoothing]
  else
    match cornerOfKey? key with
    | some k => [.corner k value]
    | none => [.unread (.key key)]

def ofBare (text : Text) : Entry :=
  let word := lower text
  if word = "visible" then .visible
  else if word = "hidden" ∨ word = "invisible" then .hidden
  else if word = "corner-smoothing" ∨ word = "smoothing" then .unread .smoothing
  else .unread (.token text)

/-- The entries of a token; keys and words count in any case. -/
def ofToken : Token → List Entry
  | .bare text => [ofBare text]
  | .pair key value => ofPair (lower key) value

end Entry

end Inspector.Appearance
