import Inspector.Sheet
import Inspector.Text.Blank
import Inspector.Yaml.Event

/-!
# Sheets in YAML

A sheet is a mapping of elements; an element is a mapping of its properties. Any scalar is taken as the
text it is written as, and a plain null is an absent property. A text without a document, and a node
that is left out, are empty. A name may come again and the last element counts; a property may not.

    readYaml t = (Document.ofText? t).bind ofDocument?, unless t is blank
-/

namespace Inspector.Sheet

open Yaml

/-! ## Scalars -/

/-- The ways to write null without a tag or quotes, besides leaving it out. -/
def isNullWord (t : Text) : Bool := ["null", "Null", "NULL", "~"].contains (String.ofList t)

/-- The tag of null values. -/
def nullTag : Text := "tag:yaml.org,2002:null"

/-- An event with an alias replaced by the node it stands for. -/
def resolved (d : Document) (e : Event) : Option Event :=
  match e with
  | .alias n => (d.nodeAt n).head?
  | e => some e

/-- A name, which any scalar is. -/
def name? (d : Document) (e : Event) : Option Text :=
  match resolved d e with
  | some (.scalar t _ _) => some t
  | _ => none

/-- A property, present or absent. -/
def property? (d : Document) (e : Event) : Option (Option Text) :=
  match resolved d e with
  | some (.scalar t true none) => some (if t.isEmpty || isNullWord t then none else some t)
  | some (.scalar t true (some tag)) =>
    if tag = nullTag then if isNullWord t then some none else none else some (some t)
  | some (.scalar t false _) => some (some t)
  | _ => none

/-! ## Mappings -/

/-- The rest of the properties of an element, up to the end of its mapping. -/
def fields? (d : Document) (e : Element) (seen : List Property) :
    List Event → Option (Element × List Event)
  | .mappingEnd :: rest => some (e, rest)
  | key :: value :: rest => do
    let p ← Property.ofName? (← name? d key)
    if seen.contains p then none
    else fields? d (e.set p (← property? d value)) (p :: seen) rest
  | _ => none

/-- An element written in place. -/
def elementIn? (d : Document) : List Event → Option (Element × List Event)
  | .scalar [] true _ :: rest => some ({}, rest)
  | .mappingStart :: rest => fields? d {} [] rest
  | _ => none

/-- An element, or an alias of one. -/
def element? (d : Document) : List Event → Option (Element × List Event)
  | .alias n :: rest => (elementIn? d (d.nodeAt n)).map fun e => (e.1, rest)
  | events => elementIn? d events

theorem length_fields?_lt {d : Document} {e e' : Element} {seen : List Property}
    {events rest : List Event} (h : fields? d e seen events = some (e', rest)) :
    rest.length < events.length := by
  fun_induction fields? d e seen events with
  | case1 e seen r => simp_all
  | case2 e seen key value r _ ih =>
    simp only [Option.bind_eq_bind, Option.bind_eq_some_iff] at h
    obtain ⟨_, _, p, _, h⟩ := h
    split at h
    · simp at h
    · obtain ⟨_, _, h⟩ := Option.bind_eq_some_iff.1 h
      have := ih p _ h
      simp only [List.length_cons]; omega
  | case3 => simp at h

theorem length_element?_lt {d : Document} {e : Element} {events rest : List Event}
    (h : element? d events = some (e, rest)) : rest.length < events.length := by
  unfold element? at h
  split at h
  · simp only [Option.map_eq_some_iff, Prod.mk.injEq] at h
    obtain ⟨_, _, _, rfl⟩ := h
    simp
  · unfold elementIn? at h
    split at h
    · simp_all
    · exact Nat.lt_succ_of_lt (length_fields?_lt h)
    · simp at h

/-- The elements up to the end of their mapping put into a sheet. -/
def elements? (d : Document) (s : Sheet) (events : List Event) : Option Sheet :=
  match events with
  | .mappingEnd :: _ => some s
  | key :: rest =>
    match h : element? d rest with
    | none => none
    | some (e, rest') =>
      have := length_element?_lt h
      (name? d key).bind fun name => elements? d (s.insert name e) rest'
  | [] => none
termination_by events.length

/-! ## Reading -/

/-- The sheet that a document describes. -/
def ofDocument? (d : Document) : Option Sheet :=
  match d.events with
  | [] | .scalar [] true _ :: _ => some empty
  | .mappingStart :: events => elements? d empty events
  | _ => none

/-- The sheet that a YAML text describes; a blank text is an empty sheet. -/
def readYaml (t : Text) : Option Sheet :=
  if (Text.trim t).isEmpty then some empty else (Document.ofText? t).bind ofDocument?

end Inspector.Sheet
