import Inspector.Layout.Alignment
import Inspector.Layout.Padding
import Inspector.Layout.Size
import Inspector.Toggle

/-!
# Entries of a layout

What the tokens of a layout ask for. Some entries belong to one mode: flow, alignment, gap,
settings, padding and size bounds to Auto, spacing to Standard. Such an entry keeps the token it
comes from, for the message that refuses it in the other mode.
-/

namespace Inspector.Layout

open Text

/-- The axis of the space between children in Standard layout. -/
inductive Spacing where
  | x
  | y
  deriving DecidableEq, Repr

def Spacing.name : Spacing → Text
  | .x => "space-x"
  | .y => "space-y"

/-- One setting of Auto layout. -/
inductive Setting where
  | baseline (name : Text) (value : Option Text)
  | unsupported (name : Text)
  | unknown (token : Token)
  deriving DecidableEq, Repr

/-- What Auto layout alone can give. -/
inductive AutoEntry where
  | flow (value : Text)
  | align (value : Text)
  | gap (value : Text)
  | settings (items : List Setting)
  | padding (items : List Padding.Item)
  deriving DecidableEq, Repr

/-- Advice about a token that asks for nothing. -/
inductive Unread where
  | key (key : Text)
  | token (text : Text)
  | mode (value : Text)
  | dimension (token : Token)
  deriving DecidableEq, Repr

inductive Entry where
  /-- The mode, which is resolved before any entry is applied. -/
  | marker
  | clip (on : Bool)
  /-- A clipping that says neither on nor off. -/
  | unclearClip (value : Text)
  | size (token : Token) (d : Dimension) (value : Text)
  | spacing (token : Token) (axis : Spacing) (value : Text)
  | auto (token : Token) (a : AutoEntry)
  | unread (u : Unread)
  deriving DecidableEq, Repr

/-! ## Settings -/

def baselineNames : List Text := ["text-baseline", "baseline", "align-text-baseline"]

def unsupportedNames : List Text := ["strokes-included", "canvas-stacking"]

namespace Setting

/-- The setting of a name in lower case. -/
def ofName? (name : Text) (value : Option Text) : Option Setting :=
  if baselineNames.contains name then some (.baseline name value)
  else if unsupportedNames.contains name then some (.unsupported name)
  else none

/-- An item of `settings=(...)`. -/
def ofToken (t : Token) : Setting :=
  (match t with
    | .bare text => ofName? (lower text) none
    | .pair key value => ofName? (lower key) (some value)).getD (.unknown t)

end Setting

/-! ## Tokens -/

/-- `clip`, `hidden`, `visible` or a toggle word. -/
def isClipped? (value : Text) : Option Bool :=
  let word := lower (trim value)
  if word = "clip" ∨ word = "hidden" then some true
  else if word = "visible" then some false
  else toggle? word

/-- The text inside the group that a value is, or the value itself. -/
def unwrapped (value : Text) : Text := (Group.strip? value).getD value

namespace Entry

/-- An item of `dimensions=(...)`. -/
def ofDimensionItem (t : Token) : Entry :=
  let item? :=
    match t with
    | .bare text => Dimension.ofItem? text
    | .pair key value => (Dimension.ofKey? (lower key)).map fun d => (d, value)
  match item? with
  | some (d, value) => .size t d value
  | none => .unread (.dimension t)

def ofBare (text : Text) : Entry :=
  let t := Token.bare text
  let word := lower text
  if word = "auto" ∨ word = "standard" then .marker
  else if word = "clip" ∨ word = "clip-content" then .clip true
  else if word = "↓" ∨ word = "→" ∨ word = "↵" then .auto t (.flow word)
  else if word = "↔" then .auto t (.gap "auto")
  else
    match Setting.ofName? word none, Alignment.ofText? word, Dimension.ofItem? text with
    | some setting, _, _ => .auto t (.settings [setting])
    | none, some _, _ => .auto t (.align text)
    | none, none, some (d, value) => .size t d value
    | none, none, none => .unread (.token text)

/-- The entry of a pair whose key is not one of the words of the layout itself. -/
def ofNamed (t : Token) (key value : Text) : Entry :=
  match Setting.ofName? key (some value), Padding.ofKey? key, Dimension.ofKey? key with
  | some setting, _, _ => .auto t (.settings [setting])
  | none, some kind, _ => .auto t (.padding (kind.items value))
  | none, none, some d => .size t d value
  | none, none, none => .unread (.key key)

def ofMode (value : Text) : Entry :=
  if sameWord value "auto" || sameWord value "standard" then .marker else .unread (.mode value)

def ofClip (value : Text) : Entry :=
  match isClipped? value with
  | some on => .clip on
  | none => .unclearClip value

def ofPair (t : Token) (key value : Text) : List Entry :=
  if key = "mode" then [ofMode value]
  else if key = "dimensions" ∨ key = "size" then
    (tokenize (unwrapped value)).map ofDimensionItem
  else if key = "clip" ∨ key = "clip-content" then [ofClip value]
  else if key = "space-y" ∨ key = "vertical-spacing" then [.spacing t .y value]
  else if key = "space-x" ∨ key = "horizontal-spacing" then [.spacing t .x value]
  else if key = "flow" then [.auto t (.flow value)]
  else if key = "align" ∨ key = "alignment" then [.auto t (.align value)]
  else if key = "gap" then [.auto t (.gap value)]
  else if key = "settings" then
    [.auto t (.settings ((tokenize (unwrapped value)).map Setting.ofToken))]
  else [ofNamed t key value]

/-- The entries of a token; keys and words count in any case. -/
def ofToken (t : Token) : List Entry :=
  match t with
  | .bare text => [ofBare text]
  | .pair key value => ofPair t (lower key) value

end Entry

end Inspector.Layout
