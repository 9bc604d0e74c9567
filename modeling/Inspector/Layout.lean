import Inspector.Fragment
import Inspector.Layout.Entry
import Inspector.Layout.Mode
import Inspector.Report

/-!
# Layouts

A layout gives an element its size, its clipping, and, by its mode, either the spacing of a block
or the flow, alignment, gap and padding of a flex box. Width and height are required; Auto layout
requires a flow as well. Alignment is turned into classes at the end, when the flow is known.

    read s = finished run, in the mode of s, over the tokens that the resolution of the mode leaves
-/

namespace Inspector.Layout

open Text

inductive Concern where
  | display
  | size (d : Dimension)
  | clip
  | spacing (axis : Spacing)
  | flow
  | wrap
  | gap
  | justify
  | items
  | padding (kind : Padding)
  deriving DecidableEq, Repr

inductive Error where
  | autoOnly (token : Token)
  | standardOnly (token : Token)
  | invalidClip (value : Text)
  | invalidSize (d : Dimension) (value : Text)
  | invalidSpacing (axis : Spacing) (value : Text)
  | wrapWithoutRow
  | invalidFlow (value : Text)
  | invalidAlignment (value : Text)
  | invalidGap (value : Text)
  | invalidPadding (kind : Padding) (value : Text)
  | invalidSetting (name value : Text)
  | missingDimensions
  | missingWidth
  | missingHeight
  | missingFlow
  deriving DecidableEq, Repr

def Error.message : Error → Text
  | .autoOnly token => "'" ++ token.written ++ "' only applies to Auto layout and was ignored"
  | .standardOnly token =>
    "'" ++ token.written ++ "' only applies to Standard layout and was ignored"
  | .invalidClip value => "invalid clip content value '" ++ value ++ "'"
  | .invalidSize d value => "invalid " ++ d.name ++ " '" ++ value ++ "'"
  | .invalidSpacing axis value => "invalid " ++ axis.name ++ " '" ++ value ++ "', expected pixels"
  | .wrapWithoutRow => "wrap requires horizontal flow to be set before it"
  | .invalidFlow value => "invalid flow '" ++ value ++ "'"
  | .invalidAlignment value => "invalid alignment '" ++ value ++ "'"
  | .invalidGap value => "invalid gap '" ++ value ++ "'"
  | .invalidPadding kind value => "invalid " ++ kind.name ++ " '" ++ value ++ "', expected pixels"
  | .invalidSetting name value => "invalid " ++ name ++ " value '" ++ value ++ "'"
  | .missingDimensions => "missing dimensions; width and height are required"
  | .missingWidth => "missing width"
  | .missingHeight => "missing height"
  | .missingFlow => "missing flow; Auto layout requires one"

/-- The concerns whose values may supersede each other. -/
inductive Superseded where
  | size (d : Dimension)
  | spacing (axis : Spacing)
  | flow
  | alignment
  | gap
  | padding (kind : Padding)
  deriving DecidableEq, Repr

def Superseded.title : Superseded → Text
  | .size d => d.name
  | .spacing axis => axis.name
  | .flow => "flow"
  | .alignment => "alignment"
  | .gap => "gap"
  | .padding kind => kind.name

inductive Warning where
  | advice (a : Advice)
  | superseded (k : Superseded)
  | unread (u : Unread)
  | wrapRemoved
  | paddingReplaced (kind earlier : Padding)
  | unknownPadding (token : Token)
  | unknownSetting (token : Token)
  | unsupportedSetting (name : Text)
  | noAlignment
  | noGap
  deriving DecidableEq, Repr

def Advice.message : Advice → Text
  | .looseWrapper =>
    "mode wrapper does not enclose the whole value; " ++
      "tokens after it were read as part of the layout"
  | .inferredAuto =>
    "no layout mode given; inferred Auto from auto-layout keywords, " ++
      "write Auto\x7b...\x7d to be explicit"
  | .assumedStandard =>
    "no layout mode given; assuming Standard, " ++
      "write Auto\x7b...\x7d or mode=Standard to be explicit"

def Unread.message : Unread → Text
  | .key k => "unknown key '" ++ k ++ "'"
  | .token text => "unrecognized token '" ++ text ++ "'"
  | .mode value => "unknown layout mode '" ++ value ++ "'"
  | .dimension t => "unrecognized dimension '" ++ t.written ++ "'"

def Warning.message : Warning → Text
  | .advice a => a.message
  | .superseded k => k.title ++ " set more than once; the last value wins"
  | .unread u => u.message
  | .wrapRemoved => "vertical flow cannot wrap; the earlier wrap was removed"
  | .paddingReplaced kind earlier =>
    kind.name ++ " replaces the earlier " ++ earlier.name ++ " value"
  | .unknownPadding token => "unknown padding entry '" ++ token.written ++ "'"
  | .unknownSetting token => "unknown setting '" ++ token.written ++ "'"
  | .unsupportedSetting name => "setting '" ++ name ++ "' is not supported and was ignored"
  | .noAlignment => "no alignment given; children align top-left"
  | .noGap => "no gap given; defaults to 0"

/-! ## Reading -/

structure State where
  draft : Draft Concern Error Warning := {}
  widthSeen : Bool := false
  heightSeen : Bool := false
  flow : Option Flow := none
  flowSeen : Bool := false
  alignment : Option Alignment := none
  alignmentSeen : Bool := false
  gapSeen : Bool := false
  /-- The space between the children is shared out. -/
  gapBetween : Bool := false
  baseline : Bool := false
  deriving DecidableEq, Repr

namespace State

def error (s : State) (e : Error) : State := { s with draft := s.draft.error e }

def warn (s : State) (w : Warning) : State := { s with draft := s.draft.warn w }

def put (s : State) (k : Concern) (c : Text) (again : Superseded) : State :=
  { s with draft := s.draft.put k [c] (.superseded again) }

def see (s : State) : Dimension → State
  | .width => { s with widthSeen := true }
  | .height => { s with heightSeen := true }
  | _ => s

def setSize (s : State) (d : Dimension) (value : Text) : State :=
  let s := s.see d
  match Fragment.ofSize? value with
  | some f => s.put (.size d) (d.short ++ "-" ++ f) (.size d)
  | none => s.error (.invalidSize d value)

def setClip (s : State) (on : Bool) : State :=
  { s with draft :=
      if on then s.draft.insert .clip "overflow-hidden" else s.draft.erase .clip }

def setSpacing (s : State) (axis : Spacing) (value : Text) : State :=
  match Fragment.ofExtent? value with
  | some f => s.put (.spacing axis) (axis.name ++ "-" ++ f) (.spacing axis)
  | none => s.error (.invalidSpacing axis value)

def setDirection (s : State) : Flow → State
  | .row => { s.put .flow "flex-row" .flow with flow := some .row }
  | .column => { s.put .flow "flex-col" .flow with flow := some .column }

def setWrap (s : State) : State :=
  if s.flow = some .row then { s with draft := s.draft.insert .wrap "flex-wrap" }
  else s.error .wrapWithoutRow

def setFlow (s : State) (value : Text) : State :=
  let s := { s with flowSeen := true }
  let word := lower (trim value)
  if word = "vertical" ∨ word = "column" ∨ word = "↓" then
    { s with draft := s.draft.discard .wrap .wrapRemoved }.setDirection .column
  else if word = "horizontal" ∨ word = "row" ∨ word = "→" then s.setDirection .row
  else if word = "wrap" ∨ word = "↵" then s.setWrap
  else s.error (.invalidFlow value)

def setAlignment (s : State) (value : Text) : State :=
  let s := { s with alignmentSeen := true }
  match Alignment.ofText? value with
  | some a =>
    let s := if s.alignment.any (· != a) then s.warn (.superseded .alignment) else s
    { s with alignment := some a }
  | none => s.error (.invalidAlignment value)

def setGap (s : State) (value : Text) : State :=
  let s := { s with gapSeen := true }
  let word := lower (trim value)
  if word = "auto" ∨ word = "space-between" ∨ word = "↔" then
    { s with draft := s.draft.erase .gap, gapBetween := true }
  else
    match Fragment.ofExtent? value with
    | some f => { s.put .gap ("gap-" ++ f) .gap with gapBetween := false }
    | none => s.error (.invalidGap value)

/-- The earlier values that a padding replaces; of all sides, it does so without a warning. -/
def replacePadding (s : State) (kind : Padding) : State :=
  let discard (d : Draft Concern Error Warning) (k : Padding) :=
    d.discard (.padding k) (.paddingReplaced kind k)
  { s with draft :=
      if kind = .all then s.draft.eraseAll (kind.replaced.map .padding)
      else kind.replaced.foldl discard s.draft }

def setPadding (s : State) : Padding.Item → State
  | .value kind value =>
    match Fragment.ofExtent? value with
    | some f =>
      (s.replacePadding kind).put (.padding kind) (kind.short ++ "-" ++ f) (.padding kind)
    | none => s.error (.invalidPadding kind value)
  | .unknown token => s.warn (.unknownPadding token)

def setSetting (s : State) : Setting → State
  | .baseline name value =>
    match value.elim (some true) toggle? with
    | some on => { s with baseline := on }
    | none => s.error (.invalidSetting name (value.getD []))
  | .unsupported name => s.warn (.unsupportedSetting name)
  | .unknown token => s.warn (.unknownSetting token)

def applyAuto (s : State) : AutoEntry → State
  | .flow value => s.setFlow value
  | .align value => s.setAlignment value
  | .gap value => s.setGap value
  | .settings items => items.foldl setSetting s
  | .padding items => items.foldl setPadding s

def apply (mode : Mode) (s : State) : Entry → State
  | .marker => s
  | .clip on => s.setClip on
  | .unclearClip value => s.error (.invalidClip value)
  | .size token d value =>
    if d.isBound && mode != .auto then s.error (.autoOnly token) else s.setSize d value
  | .spacing token axis value =>
    if mode = .auto then s.error (.standardOnly token) else s.setSpacing axis value
  | .auto token a => if mode = .auto then s.applyAuto a else s.error (.autoOnly token)
  | .unread u => s.warn (.unread u)

/-- One token after the other. -/
def step (mode : Mode) (s : State) (t : Token) : State :=
  (Entry.ofToken t).foldl (apply mode) s

/-! ## The end of a layout -/

def justifyClass? (s : State) : Option Text :=
  if s.gapBetween then some "justify-between"
  else s.alignment.map fun a => "justify-" ++ (a.main s.flow).name

def itemsClass? (s : State) : Option Text :=
  if s.baseline then some "items-baseline"
  else s.alignment.map fun a => "items-" ++ (a.cross s.flow).name

/-- The alignment as classes, by the flow that holds at the end. -/
def resolveAlignment (s : State) : State :=
  let d := match s.justifyClass? with
    | some c => s.draft.insert .justify c
    | none => s.draft
  { s with draft :=
      match s.itemsClass? with
      | some c => d.insert .items c
      | none => d }

def checkSize (s : State) : State :=
  match s.widthSeen, s.heightSeen with
  | false, false => s.error .missingDimensions
  | false, true => s.error .missingWidth
  | true, false => s.error .missingHeight
  | true, true => s

def checkAuto (s : State) : State :=
  let s := if s.flowSeen then s else s.error .missingFlow
  let s := if s.alignmentSeen then s else s.warn .noAlignment
  if s.gapSeen then s else s.warn .noGap

/-- The concerns that make an element a flex box. -/
def flexConcerns : List Concern :=
  [.flow, .wrap, .gap, .justify, .items] ++ Padding.kinds.map .padding

def setDisplay (s : State) : State :=
  if flexConcerns.any s.draft.contains then
    { s with draft := s.draft.prepend .display "flex" }
  else s

/-- The alignment resolved, the required values checked, and the box made flex if need be. -/
def finish (mode : Mode) (s : State) : State :=
  if mode = .auto then s.resolveAlignment.checkSize.checkAuto.setDisplay else s.checkSize

end State

/-- The state after a list of tokens, from the advice on the mode on. -/
def run (r : Resolution) : State :=
  r.tokens.foldl (State.step r.mode)
    { draft := { warnings := r.advice.toList.map .advice } }

/-- A layout as it was read. -/
structure Reading where
  mode : Mode
  report : Report
  deriving DecidableEq, Repr

def read (input : Option Text) : Reading :=
  let r := Mode.resolve input
  ⟨r.mode, ((run r).finish r.mode).draft.report .layout Error.message Warning.message⟩

end Inspector.Layout
