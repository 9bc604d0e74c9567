import Inspector.Token

/-!
# Paddings

A padding applies to all sides, to those on one axis, or to one side. A group of paddings is
flattened to its entries; a bare value in a group takes the kind of the group, and groups may nest.

    paddingItems flattens the groups of a padding; it calls itself on shorter texts only
-/

namespace Inspector.Layout

open Text

inductive Padding where
  | all
  | x
  | y
  | top
  | right
  | bottom
  | left
  deriving DecidableEq, Repr

namespace Padding

def kinds : List Padding := [.all, .x, .y, .top, .right, .bottom, .left]

def short : Padding → Text
  | .all => "p"
  | .x => "px"
  | .y => "py"
  | .top => "pt"
  | .right => "pr"
  | .bottom => "pb"
  | .left => "pl"

def name : Padding → Text
  | .all => "padding"
  | .x => "padding-x"
  | .y => "padding-y"
  | .top => "padding-top"
  | .right => "padding-right"
  | .bottom => "padding-bottom"
  | .left => "padding-left"

/-- The kinds that a new value of this kind replaces, in the order in which they are looked for. -/
def replaced : Padding → List Padding
  | .all => [.x, .y, .top, .right, .bottom, .left]
  | .x | .y => [.all]
  | .top | .bottom => [.y, .all]
  | .right | .left => [.x, .all]

def keys : List (Text × Padding) :=
  [("padding", .all), ("p", .all), ("padding-x", .x), ("px", .x), ("padding-horizontal", .x),
    ("padding-y", .y), ("py", .y), ("padding-vertical", .y), ("padding-top", .top), ("pt", .top),
    ("padding-right", .right), ("pr", .right), ("padding-bottom", .bottom), ("pb", .bottom),
    ("padding-left", .left), ("pl", .left)]

/-- The further keys that stand for a kind inside a group. -/
def groupKeys : List (Text × Padding) :=
  [("all", .all), ("x", .x), ("horizontal", .x), ("y", .y), ("vertical", .y), ("top", .top),
    ("t", .top), ("right", .right), ("r", .right), ("bottom", .bottom), ("b", .bottom),
    ("left", .left), ("l", .left)]

/-- The kind of a key in lower case. -/
def ofKey? (key : Text) : Option Padding := keys.lookup key

/-- The kind of a key in lower case inside a group. -/
def ofGroupKey? (key : Text) : Option Padding := (groupKeys.lookup key).or (keys.lookup key)

/-- What one value of a padding comes to. -/
inductive Item where
  | value (kind : Padding) (text : Text)
  | unknown (token : Token)
  deriving DecidableEq, Repr

/-- How a token reads inside a group of this kind: the kind and the value it gives. -/
def given? (kind : Padding) : Token → Option (Padding × Text)
  | .bare text => some (kind, text)
  | .pair key value => (ofGroupKey? (lower key)).map fun k => (k, value)

theorem text_of_given {kind k : Padding} {t : Token} {value : Text}
    (h : given? kind t = some (k, value)) : t.text = value := by
  cases t with
  | bare text => simp_all [given?, Token.text]
  | pair key v =>
    simp only [given?, Option.map_eq_some_iff] at h
    obtain ⟨_, _, h⟩ := h
    simp_all [Token.text]

/-- The leaves of a padding of this kind. -/
def items (kind : Padding) (value : Text) : List Item :=
  match h : Group.strip? value with
  | none => [.value kind value]
  | some inner =>
    (tokenize inner).attach.flatMap fun ⟨t, ht⟩ =>
      match he : given? kind t with
      | some (k, text) =>
        have : text.length < value.length := by
          have h1 := Group.length_strip? h
          have h2 := length_text_of_mem_tokenize ht
          rw [text_of_given he] at h2
          omega
        items k text
      | none => [.unknown t]
termination_by value.length

end Padding

end Inspector.Layout
