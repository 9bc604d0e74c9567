import Inspector.Color
import Inspector.Fill.Image
import Inspector.Token

/-!
# Entries of a fill

What the tokens of a fill ask for: a type, a color, an image, and an opacity. A bare token is a
color or an image; an image whose reference holds a `=` of its own may arrive bare with its key.
-/

namespace Inspector.Fill

open Text

inductive Entry where
  | kind (value : Text)
  | color (value : Text)
  | image (value : Text)
  | opacity (value : Text)
  | unknownKey (key : Text)
  | unrecognized (text : Text)
  deriving DecidableEq, Repr

namespace Entry

def isImageKey (key : Text) : Bool := key = "url" || key = "image" || key = "src"

def ofPair (key value : Text) : Entry :=
  if key = "type" then .kind value
  else if key = "color" ∨ key = "fill" then .color value
  else if key = "opacity" then .opacity value
  else if isImageKey key then .image value
  else .unknownKey key

/-- A bare text as an image key and its reference, cut at the first `=`. -/
def imagePair? (text : Text) : Option Text :=
  match text.dropWhile (· != '=') with
  | _ :: rest => if isImageKey (lower (trim (text.takeWhile (· != '=')))) then some rest else none
  | [] => none

def ofBare (text : Text) : Entry :=
  if (Color.ofText? text "bg").isSome then .color text
  else if (afterWord? "url(" text).isSome || Image.isBare (trim text) then .image text
  else
    match imagePair? text with
    | some reference => .image reference
    | none => .unrecognized text

/-- The entry of a token; keys count in any case. -/
def ofToken : Token → Entry
  | .bare text => ofBare text
  | .pair key value => ofPair (lower key) value

end Entry

end Inspector.Fill
