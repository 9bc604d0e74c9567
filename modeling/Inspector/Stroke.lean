import Inspector.Report
import Inspector.Stroke.Entry

/-!
# Strokes

A stroke becomes border classes. It is optional: without any token the report is empty. Once
written, a color and a weight are required. A weight of one side replaces the weight of the whole
stroke, and the other way round; within each concern the last valid value wins.

    read s = {} if tokens s = [], and otherwise the finished run over the entries of the tokens
-/

namespace Inspector.Stroke

open Text

inductive Concern where
  | color
  | opacity
  | style
  | weight
  | side (s : Side)
  deriving DecidableEq, Repr

/-- The concern as warnings name it. -/
def Concern.title : Concern → Text
  | .color => "stroke color"
  | .opacity => "stroke opacity"
  | .style => "stroke style"
  | .weight => "stroke weight"
  | .side s => "weight-" ++ s.short

inductive Error where
  | invalidColor (value : Text)
  | invalidOpacity (value : Text)
  | unsupportedPosition (value : Text)
  | invalidStyle (value : Text)
  | invalidWeight (value : Text)
  | invalidSideWeight (s : Side) (value : Text)
  | missingColor
  | missingWeight
  deriving DecidableEq, Repr

def Error.message : Error → Text
  | .invalidColor value => "invalid stroke color '" ++ value ++ "'"
  | .invalidOpacity value => "invalid stroke opacity '" ++ value ++ "', expected 0 to 100"
  | .unsupportedPosition value =>
    "unsupported stroke position '" ++ value ++ "', only center is available"
  | .invalidStyle value => "invalid stroke style '" ++ value ++ "'"
  | .invalidWeight value => "invalid stroke weight '" ++ value ++ "'"
  | .invalidSideWeight s value => "invalid " ++ s.short ++ " stroke weight '" ++ value ++ "'"
  | .missingColor => "missing stroke color"
  | .missingWeight => "missing stroke weight"

inductive Warning where
  | superseded (k : Concern)
  | uniformReplaced (s : Side)
  | unread (u : Unread)
  deriving DecidableEq, Repr

def Warning.message : Warning → Text
  | .superseded k => k.title ++ " set more than once; the last value wins"
  | .uniformReplaced s => s.short ++ " stroke weight replaces the earlier uniform weight"
  | .unread (.key key) => "unknown key '" ++ key ++ "'"
  | .unread (.token text) => "unrecognized token '" ++ text ++ "'"
  | .unread (.side key) => "unknown side '" ++ key ++ "'"
  | .unread (.surplus text) =>
    "stroke weight takes at most four values; '" ++ text ++ "' was ignored"

/-! ## Values -/

/-- The class of a weight: the lead alone for one pixel, a named width for 0, 2, 4 and 8. -/
def weightClass? (lead value : Text) : Option Text :=
  ((Fragment.pixels? value).filter (!·.isNegative)).map fun px =>
    if px.isNat 1 then lead
    else if [0, 2, 4, 8].any px.isNat then lead ++ "-" ++ px.spelled
    else lead ++ "-" ++ Fragment.inPixels px

def styleWords : List Text := ["solid", "dashed", "dotted", "double", "none"]

def centerWords : List Text := ["center", "centered"]

/-! ## Reading -/

abbrev State := Draft Concern Error Warning

namespace State

def setColor (s : State) (value : Text) : State :=
  match Color.ofText? value "border" with
  | some c => s.put .color [c.classFor "border"] (.superseded .color)
  | none => s.error (.invalidColor value)

def setOpacity (s : State) (value : Text) : State :=
  match Fragment.ofPercent? value with
  | some f => s.put .opacity ["border-opacity-" ++ f] (.superseded .opacity)
  | none => s.error (.invalidOpacity value)

/-- Only the centered position exists, and it needs no class. -/
def checkPosition (s : State) (value : Text) : State :=
  if centerWords.contains (lower (trim value)) then s else s.error (.unsupportedPosition value)

def setStyle (s : State) (value : Text) : State :=
  if styleWords.contains (lower (trim value)) then
    s.put .style ["border-" ++ lower (trim value)] (.superseded .style)
  else s.error (.invalidStyle value)

def setUniform (s : State) (value : Text) : State :=
  match weightClass? "border" value with
  | some c => (s.eraseAll (Side.order.map .side)).put .weight [c] (.superseded .weight)
  | none => s.error (.invalidWeight value)

def setSide (s : State) (side : Side) (value : Text) : State :=
  match weightClass? ("border-" ++ side.short) value with
  | some c =>
    (s.discard .weight (.uniformReplaced side)).put (.side side) [c] (.superseded (.side side))
  | none => s.error (.invalidSideWeight side value)

def apply (s : State) : Entry → State
  | .color value => s.setColor value
  | .opacity value => s.setOpacity value
  | .position value => s.checkPosition value
  | .style value => s.setStyle value
  | .uniform value => s.setUniform value
  | .side side value => s.setSide side value
  | .unread u => s.warn (.unread u)

/-- One token after the other. -/
def step (s : State) (t : Token) : State := (Entry.ofToken t).foldl apply s

def isWeighted (s : State) : Bool :=
  s.contains .weight || Side.order.any fun side => s.contains (.side side)

/-- The required values checked at the end. -/
def finish (s : State) : State :=
  let s := if s.contains .color then s else s.error .missingColor
  if s.isWeighted then s else s.error .missingWeight

end State

/-- The state after a list of tokens. -/
def run (ts : List Token) : State := ts.foldl State.step {}

/-- The report of a stroke. -/
def read (input : Option Text) : Report :=
  match tokens input with
  | [] => {}
  | ts => (run ts).finish.report .stroke Error.message Warning.message

end Inspector.Stroke
