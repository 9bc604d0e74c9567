import Inspector.Json.Number
import Inspector.Json.Quoted

/-!
# JSON events

A JSON text is read as the sequence of its events, from left to right, up to its end or to the first
place where it is malformed. A reader of the events can so refuse a text for its shape before the
text turns out to be malformed further on.

    the last event of `events t` is `finish` or `malformed`, and no other one is
-/

namespace Inspector.Json

open Text

inductive Event where
  | null
  | bool (b : Bool)
  | number (n : Number)
  | text (t : Text)
  | listStart
  | listEnd
  | objectStart
  | key (name : Text)
  | objectEnd
  /-- The end of a well-formed text. -/
  | finish
  /-- The text is malformed here. -/
  | malformed
  deriving DecidableEq, Repr

namespace Event

/-- A list or an object of which the end has not been read. -/
inductive Frame where
  | list
  | object
  deriving DecidableEq, Repr

/-- What may come next. -/
inductive Want where
  | value
  | itemOrEnd
  | key
  | keyOrEnd
  | colon
  /-- A comma or the end of the innermost frame, or else the end of the text. -/
  | more
  deriving DecidableEq, Repr

/-! ## Algorithm -/

def isSpace (c : Char) : Bool := c = ' ' || c = '\n' || c = '\t' || c = '\r'

/-- What is read in one go: an event with the frames and the want behind it, if the event does not
end the text. -/
structure Next where
  event : Option Event
  frames : List Frame
  want : Want
  rest : Text
  deriving DecidableEq, Repr

/-- A value, or the start of one, that begins with `c`. -/
def value? (frames : List Frame) (c : Char) (r : Text) : Option Next :=
  if c = '[' then some ⟨some .listStart, .list :: frames, .itemOrEnd, r⟩
  else if c = '\x7b' then some ⟨some .objectStart, .object :: frames, .keyOrEnd, r⟩
  else if c = '"' then (readQuoted r).map fun (t, rest) => ⟨some (.text t), frames, .more, rest⟩
  else if c = 't' then (after? "rue" r).map fun rest => ⟨some (.bool true), frames, .more, rest⟩
  else if c = 'f' then (after? "alse" r).map fun rest => ⟨some (.bool false), frames, .more, rest⟩
  else if c = 'n' then (after? "ull" r).map fun rest => ⟨some .null, frames, .more, rest⟩
  else (readNumber (c :: r)).map fun (n, rest) => ⟨some (.number n), frames, .more, rest⟩

def key? (frames : List Frame) (c : Char) (r : Text) : Option Next :=
  if c = '"' then (readQuoted r).map fun (t, rest) => ⟨some (.key t), frames, .colon, rest⟩
  else none

/-- What a text that begins with `c` goes on with, if it may do so. -/
def next? (frames : List Frame) (want : Want) (c : Char) (r : Text) : Option Next :=
  match want, frames with
  | .value, _ => value? frames c r
  | .itemOrEnd, _ =>
    if c = ']' then some ⟨some .listEnd, frames.tail, .more, r⟩ else value? frames c r
  | .key, _ => key? frames c r
  | .keyOrEnd, _ =>
    if c = '\x7d' then some ⟨some .objectEnd, frames.tail, .more, r⟩ else key? frames c r
  | .colon, _ => if c = ':' then some ⟨none, frames, .value, r⟩ else none
  | .more, .list :: outer =>
    if c = ',' then some ⟨none, frames, .value, r⟩
    else if c = ']' then some ⟨some .listEnd, outer, .more, r⟩
    else none
  | .more, .object :: outer =>
    if c = ',' then some ⟨none, frames, .key, r⟩
    else if c = '\x7d' then some ⟨some .objectEnd, outer, .more, r⟩
    else none
  | .more, [] => none

theorem length_value?_lt {frames : List Frame} {c : Char} {r : Text} {n : Next}
    (h : value? frames c r = some n) : n.rest.length < (c :: r).length := by
  unfold value? at h
  repeat' split at h
  all_goals
    first
    | (simp only [Option.some.injEq] at h; subst h; simp)
    | (simp only [Option.map_eq_some_iff] at h
       obtain ⟨a, ha, rfl⟩ := h
       first
       | exact Nat.lt_succ_of_lt (length_readQuoted_lt ha)
       | exact Nat.lt_succ_of_le (length_after?_le ha)
       | exact length_readNumber_lt ha)

theorem length_key?_lt {frames : List Frame} {c : Char} {r : Text} {n : Next}
    (h : key? frames c r = some n) : n.rest.length < (c :: r).length := by
  unfold key? at h
  split at h
  · simp only [Option.map_eq_some_iff] at h
    obtain ⟨a, ha, rfl⟩ := h
    exact Nat.lt_succ_of_lt (length_readQuoted_lt ha)
  · simp at h

theorem length_next?_lt {frames : List Frame} {want : Want} {c : Char} {r : Text} {n : Next}
    (h : next? frames want c r = some n) : n.rest.length < (c :: r).length := by
  unfold next? at h
  split at h
  · exact length_value?_lt h
  · split at h
    · simp only [Option.some.injEq] at h; subst h; simp
    · exact length_value?_lt h
  · exact length_key?_lt h
  · split at h
    · simp only [Option.some.injEq] at h; subst h; simp
    · exact length_key?_lt h
  all_goals
    repeat' split at h
    all_goals simp_all
    all_goals subst h; simp

/-- The events from a place on. -/
def eventsFrom (frames : List Frame) (want : Want) (t : Text) : List Event :=
  match h : t.dropWhile isSpace with
  | [] => [if want = .more ∧ frames = [] then .finish else .malformed]
  | c :: r =>
    match hn : next? frames want c r with
    | none => [.malformed]
    | some n =>
      have : n.rest.length < t.length := by
        have h1 := length_next?_lt hn
        have h2 := length_dropWhile_le isSpace t
        rw [h] at h2
        omega
      n.event.toList ++ eventsFrom n.frames n.want n.rest
termination_by t.length

end Event

/-- The events of a JSON text. -/
def events (t : Text) : List Event := Event.eventsFrom [] .value t

end Inspector.Json
