import Inspector.Position.Angle
import Inspector.Toggle
import Inspector.Token

/-!
# Entries of a position

What the tokens of a position ask for: detachment from the layout, rotation and mirroring, a place
on either axis, and an order in depth. Places need a detached element; an entry of that kind keeps
the token it comes from, for the message that refuses it.

    rotationItems flattens the groups of a rotation; it calls itself on shorter texts only
-/

namespace Inspector.Position

open Text

inductive Axis where
  | horizontal
  | vertical
  deriving DecidableEq, Repr

def Axis.name : Axis → Text
  | .horizontal => "horizontal"
  | .vertical => "vertical"

/-- A rotation by an angle in degrees, or a mirroring. -/
inductive Turn where
  | upright
  | flipX
  | flipY
  | angle (degrees : Binary64)
  deriving DecidableEq, Repr

/-- One item of a group of constraints. -/
inductive Constraint where
  | on (axis : Axis) (value : Text)
  | unknown (token : Token)
  deriving DecidableEq, Repr

/-- What a place is asked for by. -/
inductive Placement where
  | edge (value : Text)
  | offset (axis : Axis) (value : Text)
  | constrain (items : List Constraint)
  deriving DecidableEq, Repr

inductive Entry where
  /-- A flag; all flags are read before any entry is applied. -/
  | flag
  | placement (token : Token) (p : Placement)
  | rotation (items : List Token)
  | depth (value : Text)
  | unknownKey (key : Text)
  | unrecognized (text : Text)
  deriving DecidableEq, Repr

/-! ## Rotations -/

/-- The turn that a text is: a word, or an angle in degrees with or without `r-` before it. -/
def Turn.ofText? (text : Text) : Option Turn :=
  let word := lower (trim text)
  if word = "none" then some .upright
  else if word = "flip-h" ∨ word = "flip-x" ∨ word = "mirror-h" ∨ word = "horizontal" then
    some .flipX
  else if word = "flip-v" ∨ word = "flip-y" ∨ word = "mirror-v" ∨ word = "vertical" then
    some .flipY
  else
    (Quantity.ofText? ((after? "r-" word).getD word)).bind fun q =>
      if q.unit = none ∨ q.unit = some .deg then some (.angle q.magnitude) else none

/-- The leaves of a rotation. A group inside a group is read as a rotation of its own: what it
holds counts as one item unless it is a group again. -/
def rotationItems (value : Text) : List Token :=
  match h : Group.strip? value with
  | none => [.bare value]
  | some inner =>
    (tokenize inner).attach.flatMap fun ⟨t, ht⟩ =>
      match hn : t.group? with
      | some nested =>
        have : nested.length < value.length := Token.length_nested_lt h ht hn
        rotationItems nested
      | none => [t]
termination_by value.length

/-! ## Tokens -/

def isFlagKey (key : Text) : Bool :=
  key = "ignore-auto-layout" || key = "ignore-layout" || key = "detached"

def isEdge (word : Text) : Bool :=
  word = "left" || word = "right" || word = "top" || word = "bottom"

/-- An item of `constraints=(...)`. -/
def Constraint.ofToken (t : Token) : Constraint :=
  match t with
  | .bare _ => .unknown t
  | .pair key value =>
    if lower key = "x" ∨ lower key = "horizontal" then .on .horizontal value
    else if lower key = "y" ∨ lower key = "vertical" then .on .vertical value
    else .unknown t

namespace Entry

def ofBare (text : Text) : Entry :=
  if isFlagKey (lower text) then .flag
  else if isEdge (lower text) then .placement (.bare text) (.edge (lower text))
  else if (Turn.ofText? text).isSome then .rotation [.bare text]
  else .unrecognized text

def ofPair (token : Token) (key value : Text) : Entry :=
  if isFlagKey key then .flag
  else if key = "rotation" ∨ key = "rotate" then .rotation (rotationItems value)
  else if key = "align" ∨ key = "alignment" then .placement token (.edge value)
  else if key = "x" then .placement token (.offset .horizontal value)
  else if key = "y" then .placement token (.offset .vertical value)
  else if key = "constraint-x" ∨ key = "horizontal-constraint" then
    .placement token (.constrain [.on .horizontal value])
  else if key = "constraint-y" ∨ key = "vertical-constraint" then
    .placement token (.constrain [.on .vertical value])
  else if key = "constraints" then
    let items := tokenize ((Group.strip? value).getD value)
    .placement token (.constrain (items.map Constraint.ofToken))
  else if key = "z" ∨ key = "z-index" ∨ key = "z-order" then .depth value
  else .unknownKey key

/-- The entry of a token; keys and words count in any case. -/
def ofToken (t : Token) : Entry :=
  match t with
  | .bare text => ofBare text
  | .pair key value => ofPair t (lower key) value

end Entry

end Inspector.Position
