import Inspector.Yaml.Token

/-!
# Events of a YAML document

The tokens of a text make one document: scalars, mappings as the keys and values between their start
and end, and aliases of earlier nodes. What is left out between the indicators of a mapping stands
for an empty plain scalar.

An anchor gets the number of the names declared before it. An alias holds the number that its name
got last, and a number stands for the last node that got it.
-/

namespace Inspector.Yaml

inductive Event where
  | scalar (text : Text) (plain : Bool) (tag : Option Text)
  | mappingStart
  | mappingEnd
  | alias (number : Nat)
  deriving DecidableEq, Repr

/-- The events of a document, none for a text without one, and for each number of an anchor the place
of its node, the last one first. -/
structure Document where
  events : List Event := []
  anchors : List (Nat × Nat) := []
  deriving DecidableEq, Repr

namespace Document

/-- The events from the node of an anchor on. -/
def nodeAt (d : Document) (number : Nat) : List Event :=
  (d.anchors.lookup number).elim [] d.events.drop

/-! ## Places -/

/-- Where a node stands. -/
inductive Place where
  /-- The node of the document, which may be left out where a mark shows the start. -/
  | root (marked : Bool)
  | key
  | value
  /-- A key in a flow mapping that has no value. -/
  | lone
  deriving DecidableEq, Repr

/-- A mapping of which the end has not been read, and where it stands. -/
structure Frame where
  flow : Bool
  place : Place
  deriving DecidableEq, Repr

/-- What may come next. -/
inductive Want where
  /-- Directives, the start of a document, or its node. -/
  | document
  | node (p : Place)
  /-- A further key, or the end of the mapping. -/
  | entry
  /-- The value of the key before, or nothing for an empty one. -/
  | value
  /-- In a flow mapping, a comma or the end. -/
  | more
  /-- Marks of the end of the document, and the end of the text. -/
  | finish
  /-- The end of the text has been read. -/
  | closed
  deriving DecidableEq, Repr

/-- The events read so far, the last one first, and what decides about the next ones. -/
structure Builder where
  want : Want := .document
  events : List Event := []
  frames : List Frame := []
  /-- The anchor and the tag of the next node. -/
  anchor : Option Text := none
  tag : Option Text := none
  names : List (Text × Nat) := []
  anchors : List (Nat × Nat) := []
  version : Bool := false
  handles : List (Text × Text) := []
  deriving DecidableEq, Repr

namespace Builder

/-! ## Nodes -/

/-- Whether the innermost mapping is of the given form. -/
def inside (b : Builder) (flow : Bool) : Bool := b.frames.head?.any (·.flow = flow)

/-- The start of a node, which takes the anchor that stands before it. -/
def start (b : Builder) (e : Event) : Builder :=
  let place := b.events.length
  let b := { b with events := e :: b.events }
  match b.anchor with
  | none => { b with tag := none }
  | some name =>
    let number := b.names.length
    { b with
      anchor := none
      tag := none
      names := (name, number) :: b.names.filter (·.1 ≠ name)
      anchors := (number, place) :: b.anchors }

/-- A node that is left out. -/
def absent (b : Builder) : Builder := b.start (.scalar [] true b.tag)

/-- Behind a node; a key that has no value gets an empty one. -/
def close (b : Builder) (p : Place) : Builder :=
  match p with
  | .root _ => { b with want := .finish }
  | .key => { b with want := .value }
  | .value => { b with want := if b.inside true then .more else .entry }
  | .lone => { b.absent with want := .more }

def hasProperties (b : Builder) : Bool := b.anchor.isSome || b.tag.isSome

/-- The handles that need no directive. -/
def standardHandles : List (Text × Text) := [("!", "!"), ("!!", "tag:yaml.org,2002:")]

/-- The kind that a tag names, if its handle is known. -/
def kind? (b : Builder) (t : Tag) : Option Text :=
  if t.handle.isEmpty then some t.suffix
  else ((b.handles ++ standardHandles).lookup t.handle).map (· ++ t.suffix)

/-! ## Steps -/

/-- Whether a node at a place is left out before a token. -/
def leavesOut (b : Builder) (p : Place) (t : Token) : Bool :=
  match p, t with
  | .root marked, .directive _ | .root marked, .documentStart | .root marked, .documentEnd
  | .root marked, .finish => marked
  | .key, .value => true
  | .key, .key | .key, .blockEnd | .value, .key | .value, .value | .value, .blockEnd =>
    b.inside false
  | .key, .comma | .key, .flowEnd | .value, .comma | .value, .flowEnd =>
    b.inside true
  | _, _ => false

/-- A token that belongs to a node which has begun. -/
def belongs (b : Builder) : Token → Bool
  | .scalar _ _ | .flowStart | .blockStart => true
  | .anchor _ => b.anchor.isNone
  | .tag _ => b.tag.isNone
  | _ => false

/-- At the start of the text and in flow mappings a node may begin where others may come too. -/
def openNode (b : Builder) (t : Token) : Builder :=
  match b.want, t with
  | .document, .directive _ | .document, .documentStart | .document, .finish => b
  | .document, _ =>
    if b.version || !b.handles.isEmpty then b else { b with want := .node (.root false) }
  | .entry, .key | .entry, .flowEnd => b
  | .entry, _ => if b.inside true then { b with want := .node .lone } else b
  | _, _ => b

/-- A node left out before a token that does not belong to it. -/
def fillNode (b : Builder) (t : Token) : Builder :=
  match b.want with
  | .node p =>
    if if b.hasProperties then !b.belongs t else b.leavesOut p t then b.absent.close p else b
  | _ => b

/-- A value left out before a token that does not begin one. -/
def fillValue (b : Builder) (t : Token) : Builder :=
  if b.want = .value ∧ t ≠ .value then b.absent.close .value else b

def directive (b : Builder) : Directive → Option Builder
  | .version major minor =>
    if b.version ∨ major ≠ 1 ∨ (minor ≠ 1 ∧ minor ≠ 2) then none else some { b with version := true }
  | .handle name start =>
    if (b.handles.lookup name).isSome then none
    else some { b with handles := (name, start) :: b.handles }

/-- A token at the place of a node. -/
def node (b : Builder) (p : Place) (t : Token) : Option Builder :=
  match t with
  | .anchor name => if b.anchor.isSome then none else some { b with anchor := some name }
  | .tag t => if b.tag.isSome then none else (b.kind? t).map fun k => { b with tag := some k }
  | .alias name => (b.names.lookup name).map fun n =>
      { b with events := .alias n :: b.events }.close p
  | .scalar text plain =>
    some ((b.start (.scalar text plain (b.tag.filter (· ≠ ['!'])))).close p)
  | .flowStart | .blockStart =>
    let frame : Frame := ⟨t = .flowStart, p⟩
    some { b.start .mappingStart with want := .entry, frames := frame :: b.frames }
  | _ => none

/-- The end of the innermost mapping. -/
def mappingEnd (b : Builder) : Option Builder :=
  match b.frames with
  | [] => none
  | frame :: outer =>
    some ({ b with events := .mappingEnd :: b.events, frames := outer }.close frame.place)

/-- A token where it may stand. -/
def take (b : Builder) (t : Token) : Option Builder :=
  match b.want, t with
  | .document, .directive d => b.directive d
  | .document, .documentStart => some { b with want := .node (.root true) }
  | .document, .finish =>
    if b.version || !b.handles.isEmpty then none else some { b with want := .closed }
  | .node p, t => b.node p t
  | .entry, .key => some { b with want := .node .key }
  | .entry, .blockEnd => if b.inside false then b.mappingEnd else none
  | .entry, .flowEnd | .more, .flowEnd => if b.inside true then b.mappingEnd else none
  | .value, .value => some { b with want := .node .value }
  | .more, .comma => some { b with want := .entry }
  | .finish, .documentEnd => some b
  | .finish, .finish => some { b with want := .closed }
  | _, _ => none

/-- A token, with the nodes that are left out before it. -/
def step (b : Builder) (t : Token) : Option Builder :=
  (((b.openNode t).fillNode t).fillValue t).take t

end Builder

/-- The document that tokens make. -/
def ofTokens? (tokens : List Token) : Option Document := do
  let b ← tokens.foldlM Builder.step {}
  if b.want = .closed then return ⟨b.events.reverse, b.anchors⟩
  none

/-- The document of a text. -/
def ofText? (t : Text) : Option Document := (tokens? t).bind ofTokens?

end Document

end Inspector.Yaml
