import Inspector.Fragment
import Inspector.Position.Entry
import Inspector.Report

/-!
# Positions

A position says whether the element leaves the layout, how it is turned, where it is placed and how
deep it lies. The flag is read from all tokens first, so that placement, which a detached element
alone may have, does not hang on where the flag stands. Flag and rotation are required.

    read s = finished run over the tokens of s, after the flags of all of them
-/

namespace Inspector.Position

open Text

inductive Concern where
  /-- Fixed or relative. -/
  | frame
  | rotate
  | flipX
  | flipY
  | place (axis : Axis)
  | depth
  deriving DecidableEq, Repr

inductive Error where
  | invalidFlag (key value : Text)
  | notDetached (token : Token)
  | invalidRotation (item : Token)
  | invalidEdge (value : Text)
  | invalidOffset (axis : Axis) (value : Text)
  | invalidConstraint (axis : Axis) (value : Text)
  | invalidDepth (value : Text)
  | missingFlag
  | missingRotation
  deriving DecidableEq, Repr

def Error.message : Error → Text
  | .invalidFlag key value => "invalid " ++ key ++ " value '" ++ value ++ "'"
  | .notDetached token =>
    "'" ++ token.written ++ "' requires ignore-auto-layout=true and was ignored"
  | .invalidRotation item => "invalid rotation '" ++ item.written ++ "'"
  | .invalidEdge value => "invalid alignment '" ++ value ++ "'"
  | .invalidOffset .horizontal value => "invalid x offset '" ++ value ++ "'"
  | .invalidOffset .vertical value => "invalid y offset '" ++ value ++ "'"
  | .invalidConstraint axis value => "invalid " ++ axis.name ++ " constraint '" ++ value ++ "'"
  | .invalidDepth value => "invalid z-order '" ++ value ++ "'"
  | .missingFlag => "missing ignore-auto-layout flag; defaults to false"
  | .missingRotation => "missing rotation; use rotation=none for no rotation"

/-- The concerns whose values may supersede each other. -/
inductive Superseded where
  | rotation
  | place (axis : Axis)
  | depth
  deriving DecidableEq, Repr

def Superseded.title : Superseded → Text
  | .rotation => "rotation"
  | .place axis => axis.name ++ " placement"
  | .depth => "z-order"

inductive Warning where
  | superseded (k : Superseded)
  | unknownConstraint (item : Token)
  | unknownKey (key : Text)
  | unrecognized (text : Text)
  | madeRelative
  deriving DecidableEq, Repr

def Warning.message : Warning → Text
  | .superseded k => k.title ++ " set more than once; the last value wins"
  | .unknownConstraint item => "unknown constraint '" ++ item.written ++ "'"
  | .unknownKey key => "unknown key '" ++ key ++ "'"
  | .unrecognized text => "unrecognized token '" ++ text ++ "'"
  | .madeRelative => "z-order without ignore-auto-layout; added relative positioning"

/-! ## Values -/

/-- The axis and the class of an edge. -/
def edge? (value : Text) : Option (Axis × Text) :=
  let word := lower (trim value)
  if word = "left" then some (.horizontal, "left-0")
  else if word = "right" then some (.horizontal, "right-0")
  else if word = "top" then some (.vertical, "top-0")
  else if word = "bottom" then some (.vertical, "bottom-0")
  else none

/-- The classes of a constraint on an axis. -/
def constraint? (axis : Axis) (value : Text) : Option (List Text) :=
  let word := lower (trim value)
  match axis with
  | .horizontal =>
    if word = "left" then some ["left-0"]
    else if word = "right" then some ["right-0"]
    else if word = "stretch" ∨ word = "left-right" then some ["left-0", "right-0"]
    else if word = "center" then some ["left-1/2", "-translate-x-1/2"]
    else if word = "scale" then some ["w-full"]
    else none
  | .vertical =>
    if word = "top" then some ["top-0"]
    else if word = "bottom" then some ["bottom-0"]
    else if word = "stretch" ∨ word = "top-bottom" then some ["top-0", "bottom-0"]
    else if word = "center" then some ["top-1/2", "-translate-y-1/2"]
    else if word = "scale" then some ["h-full"]
    else none

def offsetLead : Axis → Text
  | .horizontal => "left-"
  | .vertical => "top-"

/-- A whole number of 64 bits with an optional sign. -/
def integer? (t : Text) : Option Int :=
  let digits := if t.head? = some '-' ∨ t.head? = some '+' then t.tail else t
  let n := Nat.ofDigitChars 10 digits 0
  if digits.isEmpty || !digits.all Char.isDigit then none
  else if t.head? = some '-' then if n ≤ Nat.pow 2 63 then some (-n) else none
  else if n < Nat.pow 2 63 then some n else none

/-- Depths with a class of their own. -/
def depthSteps : List Nat := [0, 10, 20, 30, 40, 50]

def integerText (n : Int) : Text :=
  (if n < 0 then ['-'] else []) ++ Nat.toDigits 10 n.natAbs

def depthClass? (value : Text) : Option Text :=
  if lower (trim value) = "auto" then some "z-auto"
  else
    (integer? (trim value)).map fun n =>
      if depthSteps.contains n.natAbs then
        (if n < 0 then ['-'] else []) ++ "z-" ++ Nat.toDigits 10 n.natAbs
      else "z-[" ++ integerText n ++ "]"

/-! ## Reading -/

structure State where
  draft : Draft Concern Error Warning := {}
  detached : Bool := false
  flagSeen : Bool := false
  rotationSeen : Bool := false
  deriving DecidableEq, Repr

namespace State

def error (s : State) (e : Error) : State := { s with draft := s.draft.error e }

def warn (s : State) (w : Warning) : State := { s with draft := s.draft.warn w }

/-- The flag of a token, if it is one; a bare flag counts as on. -/
def readFlag (s : State) : Token → State
  | .bare text =>
    if isFlagKey (lower text) then { s with flagSeen := true, detached := true } else s
  | .pair key value =>
    if isFlagKey (lower key) then
      match toggle? value with
      | some on => { s with flagSeen := true, detached := on }
      | none => { s with flagSeen := true }.error (.invalidFlag key value)
    else s

def setTurn (s : State) : Turn → State
  | .upright => { s with draft := s.draft.erase .rotate }
  | .flipX => { s with draft := s.draft.insert .flipX "-scale-x-100" }
  | .flipY => { s with draft := s.draft.insert .flipY "-scale-y-100" }
  | .angle degrees =>
    match Angle.class? degrees with
    | some c => { s with draft := s.draft.put .rotate [c] (.superseded .rotation) }
    | none => { s with draft := s.draft.erase .rotate }

def setRotationItem (s : State) (item : Token) : State :=
  match item with
  | .bare text =>
    match Turn.ofText? text with
    | some turn => s.setTurn turn
    | none => s.error (.invalidRotation item)
  | .pair _ _ => s.error (.invalidRotation item)

/-- The classes of an axis, kept together. -/
def place (s : State) (axis : Axis) (classes : List Text) : State :=
  { s with draft := s.draft.put (.place axis) classes (.superseded (.place axis)) }

def setConstraint (s : State) : Constraint → State
  | .on axis value =>
    match constraint? axis value with
    | some classes => s.place axis classes
    | none => s.error (.invalidConstraint axis value)
  | .unknown item => s.warn (.unknownConstraint item)

def setPlacement (s : State) : Placement → State
  | .edge value =>
    match edge? value with
    | some (axis, c) => s.place axis [c]
    | none => s.error (.invalidEdge value)
  | .offset axis value =>
    match Fragment.ofLength? value with
    | some f => s.place axis [offsetLead axis ++ f]
    | none => s.error (.invalidOffset axis value)
  | .constrain items => items.foldl setConstraint s

def setDepth (s : State) (value : Text) : State :=
  match depthClass? value with
  | some c => { s with draft := s.draft.put .depth [c] (.superseded .depth) }
  | none => s.error (.invalidDepth value)

def apply (s : State) : Entry → State
  | .flag => s
  | .placement token p => if s.detached then s.setPlacement p else s.error (.notDetached token)
  | .rotation items => items.foldl setRotationItem { s with rotationSeen := true }
  | .depth value => s.setDepth value
  | .unknownKey key => s.warn (.unknownKey key)
  | .unrecognized text => s.warn (.unrecognized text)

/-- One token after the other. -/
def step (s : State) (t : Token) : State := s.apply (Entry.ofToken t)

/-- The frame of the element: fixed on a layer of its own, or relative if only its depth is given. -/
def setFrame (s : State) : State :=
  if s.detached then
    let draft := s.draft.prepend .frame "fixed"
    { s with draft := if draft.contains .depth then draft else draft.insert .depth "z-50" }
  else if s.draft.contains .depth then
    { s with draft := s.draft.prepend .frame "relative" }.warn .madeRelative
  else s

/-- The required values checked at the end, and the frame set. -/
def finish (s : State) : State :=
  let s := if s.flagSeen then s else s.error .missingFlag
  let s := if s.rotationSeen then s else s.error .missingRotation
  s.setFrame

end State

/-- The state after a list of tokens: the flags of all of them, then one after the other. -/
def run (ts : List Token) : State := ts.foldl State.step (ts.foldl State.readFlag {})

/-- A position as it was read. -/
structure Reading where
  report : Report
  /-- The element leaves the layout for the topmost layer. -/
  isFixed : Bool
  deriving DecidableEq, Repr

def read (input : Option Text) : Reading :=
  let s := (run (tokens input)).finish
  ⟨s.draft.report .position Error.message Warning.message, s.detached⟩

end Inspector.Position
