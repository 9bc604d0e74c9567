import Inspector.Appearance.Entry
import Inspector.Report

/-!
# Appearances

An appearance becomes visibility, opacity and radius classes. Leaving it out is a warning, since
the defaults need no class; once written, visibility and opacity are required, and an opacity class
is always there. The radius of one corner replaces the radius of all, and the other way round.

    read s has the one warning `defaulted` if tokens s = [], and otherwise the finished run
-/

namespace Inspector.Appearance

open Text

inductive Concern where
  | visibility
  | opacity
  | radius
  | corner (k : Corner)
  deriving DecidableEq, Repr

inductive Error where
  | invalidVisibility (value : Text)
  | invalidOpacity (value : Text)
  | invalidRadius (value : Text)
  | invalidCornerRadius (k : Corner) (value : Text)
  | missingVisibility
  | missingOpacity
  deriving DecidableEq, Repr

def Error.message : Error → Text
  | .invalidVisibility value => "invalid visibility '" ++ value ++ "'"
  | .invalidOpacity value => "invalid opacity '" ++ value ++ "', expected 0 to 100"
  | .invalidRadius value => "invalid corner radius '" ++ value ++ "'"
  | .invalidCornerRadius k value => "invalid " ++ k.short ++ " corner radius '" ++ value ++ "'"
  | .missingVisibility => "missing visibility; defaults to visible"
  | .missingOpacity => "missing opacity; defaults to 100"

/-- The concerns whose values may supersede each other. -/
inductive Superseded where
  | opacity
  | radius
  | corner (k : Corner)
  deriving DecidableEq, Repr

def Superseded.title : Superseded → Text
  | .opacity => "opacity"
  | .radius => "corner radius"
  | .corner k => "radius-" ++ k.short

inductive Warning where
  | superseded (k : Superseded)
  | uniformReplaced (k : Corner)
  | unread (u : Unread)
  | defaulted
  deriving DecidableEq, Repr

def Warning.message : Warning → Text
  | .superseded k => k.title ++ " set more than once; the last value wins"
  | .uniformReplaced k => k.short ++ " corner radius replaces the earlier all-corner radius"
  | .unread (.key key) => "unknown key '" ++ key ++ "'"
  | .unread (.token text) => "unrecognized token '" ++ text ++ "'"
  | .unread (.corner key) => "unknown corner '" ++ key ++ "'"
  | .unread (.surplus text) =>
    "corner radius takes at most four values; '" ++ text ++ "' was ignored"
  | .unread .smoothing => "corner smoothing has no utility class and was ignored"
  | .defaulted => "no appearance given; defaults applied (visible, opacity 100)"

/-! ## Values -/

/-- The fragment of a radius: `none` for zero of whatever unit, else a length that is not
negative. -/
def radiusFragment? (value : Text) : Option Text :=
  (Quantity.ofText? value).bind fun q =>
    if q.magnitude.isNegative then none
    else if q.magnitude.isZero then some "none"
    else
      match q.unit with
      | none | some .px => some (Fragment.inPixels q.magnitude)
      | some .percent => some (Fragment.inPercent q.magnitude)
      | some .deg => none

/-! ## Reading -/

structure State where
  draft : Draft Concern Error Warning := {}
  visibilitySeen : Bool := false
  opacitySeen : Bool := false
  deriving DecidableEq, Repr

namespace State

/-- The default needs no class, so a visible element has none. -/
def reveal (s : State) : State :=
  { s with draft := s.draft.erase .visibility, visibilitySeen := true }

def hide (s : State) : State :=
  { s with draft := s.draft.insert .visibility "invisible", visibilitySeen := true }

def error (s : State) (e : Error) : State := { s with draft := s.draft.error e }

def warn (s : State) (w : Warning) : State := { s with draft := s.draft.warn w }

def setOpacity (s : State) (value : Text) : State :=
  let s := { s with opacitySeen := true }
  match Fragment.ofPercent? value with
  | some f =>
    { s with draft := s.draft.put .opacity ["opacity-" ++ f] (.superseded .opacity) }
  | none => s.error (.invalidOpacity value)

def setUniform (s : State) (value : Text) : State :=
  match radiusFragment? value with
  | some f =>
    let draft := s.draft.eraseAll (Corner.order.map .corner)
    { s with draft := draft.put .radius ["rounded-" ++ f] (.superseded .radius) }
  | none => s.error (.invalidRadius value)

def setCorner (s : State) (k : Corner) (value : Text) : State :=
  match radiusFragment? value with
  | some f =>
    let draft := s.draft.discard .radius (.uniformReplaced k)
    let c := "rounded-" ++ k.short ++ "-" ++ f
    { s with draft := draft.put (.corner k) [c] (.superseded (.corner k)) }
  | none => s.error (.invalidCornerRadius k value)

def apply (s : State) : Entry → State
  | .visible => s.reveal
  | .hidden => s.hide
  | .unclear value => { s with visibilitySeen := true }.error (.invalidVisibility value)
  | .opacity value => s.setOpacity value
  | .uniform value => s.setUniform value
  | .corner k value => s.setCorner k value
  | .unread u => s.warn (.unread u)

/-- One token after the other. -/
def step (s : State) (t : Token) : State := (Entry.ofToken t).foldl apply s

/-- The required values checked at the end, and the default opacity filled in. -/
def finish (s : State) : State :=
  let s := if s.visibilitySeen then s else s.error .missingVisibility
  let s := if s.opacitySeen then s else s.error .missingOpacity
  if s.draft.contains .opacity then s
  else { s with draft := s.draft.insert .opacity "opacity-100" }

end State

def report (d : Draft Concern Error Warning) : Report :=
  d.report .appearance Error.message Warning.message

/-- The state after a list of tokens. -/
def run (ts : List Token) : State := ts.foldl State.step {}

/-- The report of an appearance. -/
def read (input : Option Text) : Report :=
  match tokens input with
  | [] => report (({} : State).warn .defaulted).draft
  | ts => report (run ts).finish.draft

end Inspector.Appearance
