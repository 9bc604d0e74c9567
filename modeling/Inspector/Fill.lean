import Inspector.Fill.Entry
import Inspector.Fragment
import Inspector.Report

/-!
# Fills

A fill is a solid color or a background image, with an opacity. It is optional: without any token
the report is empty. Once written, the type, given or inferred, and the opacity are required. A
type that is given outright rules out values of the other one; an inferred one gives way.

    read s = {} if tokens s = [], and otherwise the finished run over the entries of the tokens
-/

namespace Inspector.Fill

open Text

inductive Kind where
  | solid
  | image
  deriving DecidableEq, Repr

def Kind.name : Kind → Text
  | .solid => "solid"
  | .image => "image"

def Kind.ofName? (name : Text) : Option Kind :=
  if name = "solid" then some .solid else if name = "image" then some .image else none

/-- The kind of a fill, and whether the type was given or inferred from a value. -/
structure Decision where
  kind : Kind
  given : Bool
  deriving DecidableEq, Repr

inductive Concern where
  | color
  | url
  | opacity
  | size
  | position
  | tiling
  deriving DecidableEq, Repr

inductive Error where
  | invalidKind (value : Text)
  | colorOnImage (value : Text)
  | invalidColor (value : Text)
  | invalidOpacity (value : Text)
  | invalidImage (value : Text)
  | imageOnSolid (reference : Text)
  | missingKind
  | missingColor
  | missingImage
  | missingOpacity
  deriving DecidableEq, Repr

def Error.message : Error → Text
  | .invalidKind value => "invalid fill type '" ++ value ++ "'"
  | .colorOnImage value =>
    "color '" ++ value ++ "' does not apply to an image fill and was ignored"
  | .invalidColor value => "invalid fill color '" ++ value ++ "'"
  | .invalidOpacity value => "invalid fill opacity '" ++ value ++ "', expected 0 to 100"
  | .invalidImage value => "invalid image url '" ++ value ++ "'"
  | .imageOnSolid reference =>
    "image url '" ++ reference ++ "' does not apply to a solid fill and was ignored"
  | .missingKind => "missing fill type"
  | .missingColor => "solid fill requires a color"
  | .missingImage => "image fill requires a url"
  | .missingOpacity => "missing fill opacity; defaults to 100"

/-- The concerns whose values may supersede each other. -/
inductive Superseded where
  | color
  | opacity
  | image
  deriving DecidableEq, Repr

def Superseded.title : Superseded → Text
  | .color => "fill color"
  | .opacity => "fill opacity"
  | .image => "image url"

inductive Warning where
  | superseded (k : Superseded)
  | unknownKey (key : Text)
  | unrecognized (text : Text)
  | colorDiscarded
  | imageDiscarded
  | turnedIntoImage
  | kindChanged (kind : Kind)
  | inferred (kind : Kind)
  deriving DecidableEq, Repr

def Warning.message : Warning → Text
  | .superseded k => k.title ++ " set more than once; the last value wins"
  | .unknownKey key => "unknown key '" ++ key ++ "'"
  | .unrecognized text => "unrecognized token '" ++ text ++ "'"
  | .colorDiscarded => "type=image discards the earlier fill color"
  | .imageDiscarded => "type=solid discards the earlier image url"
  | .turnedIntoImage => "image url turns the fill into an image; the color was discarded"
  | .kindChanged kind => "fill type changed to " ++ kind.name
  | .inferred kind => "fill type not given; inferred " ++ kind.name

/-! ## Reading -/

/-- How an image is presented; the first image of a fill brings these classes along. -/
def presentation : List (Concern × Text) :=
  [(.size, "bg-cover"), (.position, "bg-center"), (.tiling, "bg-no-repeat")]

structure State where
  draft : Draft Concern Error Warning := {}
  decision : Option Decision := none
  opacitySeen : Bool := false
  /-- Whether the classes of the presentation are there. -/
  seeded : Bool := false
  deriving DecidableEq, Repr

namespace State

def error (s : State) (e : Error) : State := { s with draft := s.draft.error e }

def warn (s : State) (w : Warning) : State := { s with draft := s.draft.warn w }

/-- The values of the other kind discarded. -/
def discardFor (s : State) : Kind → State
  | .image => { s with draft := s.draft.discard .color .colorDiscarded }
  | .solid =>
    if s.draft.contains .url then
      { s with
        draft := (s.draft.eraseAll (.url :: presentation.map (·.1))).warn .imageDiscarded
        seeded := false }
    else s

def setKind (s : State) (value : Text) : State :=
  match Kind.ofName? (lower (trim value)) with
  | none => s.error (.invalidKind value)
  | some kind =>
    let s := s.discardFor kind
    let s := if s.decision.any (·.kind != kind) then s.warn (.kindChanged kind) else s
    { s with decision := some ⟨kind, true⟩ }

def setColor (s : State) (value : Text) : State :=
  if s.decision.any (·.kind == .image) then s.error (.colorOnImage value)
  else
    match Color.ofText? value "bg" with
    | none => s.error (.invalidColor value)
    | some c =>
      { s with
        draft := s.draft.put .color [c.classFor "bg"] (.superseded .color)
        decision := s.decision.or (some ⟨.solid, false⟩) }

def setOpacity (s : State) (value : Text) : State :=
  let s := { s with opacitySeen := true }
  match Fragment.ofPercent? value with
  | some f =>
    { s with draft := s.draft.put .opacity ["bg-opacity-" ++ f] (.superseded .opacity) }
  | none => s.error (.invalidOpacity value)

/-- The fill as an image: an inferred color gives way. -/
def turnIntoImage (s : State) : State :=
  match s.decision with
  | none => { s with decision := some ⟨.image, false⟩ }
  | some ⟨.solid, _⟩ =>
    { s with
      draft := (s.draft.erase .color).warn .turnedIntoImage
      decision := some ⟨.image, false⟩ }
  | some ⟨.image, _⟩ => s

def seed (s : State) : State :=
  if s.seeded then s
  else
    { s with
      draft := presentation.foldl (fun d p => d.insert p.1 p.2) s.draft
      seeded := true }

def setImage (s : State) (value : Text) : State :=
  match Image.ofText? value with
  | none => s.error (.invalidImage value)
  | some reference =>
    if s.decision = some ⟨.solid, true⟩ then s.error (.imageOnSolid reference)
    else
      let s := s.turnIntoImage
      let c := "bg-[url(" ++ reference ++ ")]"
      { s with draft := s.draft.put .url [c] (.superseded .image) }.seed

def apply (s : State) : Entry → State
  | .kind value => s.setKind value
  | .color value => s.setColor value
  | .opacity value => s.setOpacity value
  | .image value => s.setImage value
  | .unknownKey key => s.warn (.unknownKey key)
  | .unrecognized text => s.warn (.unrecognized text)

/-- One token after the other. -/
def step (s : State) (t : Token) : State := s.apply (Entry.ofToken t)

def checkKind (s : State) : State :=
  match s.decision with
  | none => s.error .missingKind
  | some ⟨kind, given⟩ => if given then s else s.warn (.inferred kind)

def checkValue (s : State) : State :=
  match s.decision with
  | some ⟨.solid, _⟩ => if s.draft.contains .color then s else s.error .missingColor
  | some ⟨.image, _⟩ => if s.draft.contains .url then s else s.error .missingImage
  | none => s

def checkOpacity (s : State) : State :=
  let s := if s.opacitySeen then s else s.error .missingOpacity
  if s.draft.contains .opacity then s
  else { s with draft := s.draft.insert .opacity "bg-opacity-100" }

/-- The required values checked at the end, and the default opacity filled in. -/
def finish (s : State) : State := s.checkKind.checkValue.checkOpacity

end State

/-- The state after a list of tokens. -/
def run (ts : List Token) : State := ts.foldl State.step {}

/-- The report of a fill. -/
def read (input : Option Text) : Report :=
  match tokens input with
  | [] => {}
  | ts => (run ts).finish.draft.report .fill Error.message Warning.message

end Inspector.Fill
