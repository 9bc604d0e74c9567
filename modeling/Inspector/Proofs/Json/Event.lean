import Inspector.Json.Event
import Inspector.Json.Printer
import Inspector.Proofs.Json.Quoted

/-!
# Trees read as they are written

The events of a tree are those of its text, whether it is written without blanks or on lines of its
own. A piece of text is said to give its events if it does so before any other text; such pieces can
be put side by side, and an item is the same whether it comes first or behind a comma.

    Gives fs w t evs fs' w' → eventsFrom fs w (t ++ r) = evs ++ eventsFrom fs' w' r
    events (compact v) = v.events ++ [.finish]                                   (events_compact)
    events (document v) = v.events ++ [.finish]                                 (events_document)
-/

namespace Inspector

open Text Json

mutual

/-- What a tree is read as, from left to right. -/
def Tree.events : Tree → List Event
  | .bool b => [.bool b]
  | .text t => [.text t]
  | .texts ts => .listStart :: ts.map .text ++ [.listEnd]
  | .object fields => .objectStart :: fieldEvents fields ++ [.objectEnd]

def Tree.fieldEvents : List (Text × Tree) → List Event
  | [] => []
  | (name, v) :: fs => .key name :: v.events ++ fieldEvents fs

end

namespace Json.Event

variable {frames frames' frames'' : List Frame} {want want' want'' : Want}

/-! ## Steps -/

/-- The events hang on what stands behind the blanks. -/
theorem eventsFrom_eq (frames : List Frame) (want : Want) (t : Text) :
    eventsFrom frames want t =
      match t.dropWhile isSpace with
      | [] => [if want = .more ∧ frames = [] then .finish else .malformed]
      | c :: r =>
        match next? frames want c r with
        | none => [.malformed]
        | some n => n.event.toList ++ eventsFrom n.frames n.want n.rest := by
  rw [eventsFrom]
  split
  · next h => rw [h]
  · next c r h =>
    split
    · next hn => simp only [h, hn]
    · next n hn => simp only [h, hn]

theorem eventsFrom_cons {c : Char} {r : Text} {n : Next} (hc : isSpace c = false)
    (h : next? frames want c r = some n) :
    eventsFrom frames want (c :: r) = n.event.toList ++ eventsFrom n.frames n.want n.rest := by
  have front : (c :: r).dropWhile isSpace = c :: r := List.dropWhile_cons_of_neg (by simp [hc])
  rw [eventsFrom_eq, front]
  dsimp only
  rw [h]

/-- Before any other text, `t` gives the events `evs` and leaves the given frames and want. -/
def Gives (frames : List Frame) (want : Want) (t : Text) (evs : List Event) (frames' : List Frame)
    (want' : Want) : Prop :=
  ∀ r, eventsFrom frames want (t ++ r) = evs ++ eventsFrom frames' want' r

namespace Gives

variable {t u : Text} {evs evs' : List Event}

theorem append (h : Gives frames want t evs frames' want')
    (h' : Gives frames' want' u evs' frames'' want'') :
    Gives frames want (t ++ u) (evs ++ evs') frames'' want'' := by
  intro r
  rw [List.append_assoc, h, h', List.append_assoc]

theorem of_next (ev : Option Event) {c : Char} (hc : isSpace c = false)
    (h : ∀ r, next? frames want c (t ++ r) = some ⟨ev, frames', want', r⟩) :
    Gives frames want (c :: t) ev.toList frames' want' := by
  intro r
  exact eventsFrom_cons hc (h r)

theorem blanks (h : t.all isSpace) : Gives frames want t [] frames want := by
  intro r
  rw [eventsFrom_eq, List.dropWhile_append_of_pos (List.all_eq_true.1 h), List.nil_append,
    ← eventsFrom_eq]

end Gives

/-! ## Scalars -/

/-- A string before its quotes are read. -/
theorem quoted_append (t r : Text) :
    quoted t ++ r = '"' :: (t.flatMap escaped ++ '"' :: r) := by
  simp [quoted]

theorem gives_quoted (t : Text) (first : want = .value ∨ want = .itemOrEnd) :
    Gives frames want (quoted t) [.text t] frames .more := by
  intro r
  rw [quoted_append]
  have value : value? frames '"' (t.flatMap escaped ++ '"' :: r) =
      some ⟨some (.text t), frames, .more, r⟩ := by
    have read := readQuoted_escaped t r
    simp [value?, read]
  refine eventsFrom_cons (by decide) (n := ⟨some (.text t), frames, .more, r⟩) ?_
  rcases first with rfl | rfl
  · exact value
  · exact value

theorem gives_key (name : Text) (first : want = .key ∨ want = .keyOrEnd) :
    Gives frames want (quoted name ++ ":") [.key name] frames .value := by
  have key : Gives frames want (quoted name) [.key name] frames .colon := by
    intro r
    rw [quoted_append]
    have key : key? frames '"' (name.flatMap escaped ++ '"' :: r) =
        some ⟨some (.key name), frames, .colon, r⟩ := by
      simp [key?, readQuoted_escaped name r]
    refine eventsFrom_cons (by decide) (n := ⟨some (.key name), frames, .colon, r⟩) ?_
    rcases first with rfl | rfl
    · exact key
    · exact key
  have colon : Gives frames .colon [':'] [] frames .value :=
    .of_next none (by decide) fun r => rfl
  exact key.append colon

theorem gives_bool (b : Bool) : Gives frames .value (boolText b) [.bool b] frames .more := by
  cases b with
  | true => exact .of_next (some (.bool true)) (by decide) fun r => rfl
  | false => exact .of_next (some (.bool false)) (by decide) fun r => rfl

/-! ## Lists and objects -/

namespace Frame

def opener : Frame → Char
  | .list => '['
  | .object => '\x7b'

def closer : Frame → Char
  | .list => ']'
  | .object => '\x7d'

def startEvent : Frame → Event
  | .list => .listStart
  | .object => .objectStart

def endEvent : Frame → Event
  | .list => .listEnd
  | .object => .objectEnd

/-- What may come behind the opener. -/
def first : Frame → Want
  | .list => .itemOrEnd
  | .object => .keyOrEnd

/-- What has to come behind a comma. -/
def later : Frame → Want
  | .list => .value
  | .object => .key

end Frame

variable (f : Frame)

theorem gives_opener : Gives frames .value [f.opener] [f.startEvent] (f :: frames) f.first := by
  cases f with
  | list => exact .of_next (some .listStart) (by decide) fun r => rfl
  | object => exact .of_next (some .objectStart) (by decide) fun r => rfl

/-- A frame may end before its first item and behind any other. -/
theorem gives_closer (h : want = f.first ∨ want = .more) :
    Gives (f :: frames) want [f.closer] [f.endEvent] frames .more := by
  cases f with
  | list =>
    rcases h with rfl | rfl
    · exact .of_next (some .listEnd) (by decide) fun r => rfl
    · exact .of_next (some .listEnd) (by decide) fun r => rfl
  | object =>
    rcases h with rfl | rfl
    · exact .of_next (some .objectEnd) (by decide) fun r => rfl
    · exact .of_next (some .objectEnd) (by decide) fun r => rfl

theorem gives_comma : Gives (f :: frames) .more [','] [] (f :: frames) f.later := by
  cases f with
  | list => exact .of_next none (by decide) fun r => rfl
  | object => exact .of_next none (by decide) fun r => rfl

/-- The text of an item, wherever in the frame it stands, and its events. -/
def IsItem (frames : List Frame) (i : Text × List Event) : Prop :=
  ∀ want, want = f.first ∨ want = f.later → Gives (f :: frames) want i.1 i.2 (f :: frames) .more

variable {f}

/-- Items behind each other, with a comma and blanks between them. -/
theorem gives_joined {blanks : Text} (hb : blanks.all isSpace) {items : List (Text × List Event)}
    (hne : items ≠ []) (h : ∀ i ∈ items, IsItem f frames i) (hw : want = f.first ∨ want = f.later) :
    Gives (f :: frames) want (joined (',' :: blanks) (items.map (·.1))) (items.flatMap (·.2))
      (f :: frames) .more := by
  induction items generalizing want with
  | nil => exact absurd rfl hne
  | cons i is ih =>
    obtain ⟨hi, his⟩ := List.forall_mem_cons.1 h
    cases is with
    | nil =>
      rw [List.flatMap_singleton]
      exact hi want hw
    | cons j js =>
      have comma : Gives (f :: frames) .more (',' :: blanks) [] (f :: frames) f.later :=
        (gives_comma f).append (.blanks hb)
      have rest := ih (List.cons_ne_nil j js) his (.inr rfl)
      have behind := comma.append rest
      rw [List.nil_append] at behind
      simpa [joined] using (hi want hw).append behind

/-- A frame around items, with blanks before and behind them. -/
theorem gives_frame (front between behind : Text) (hf : front.all isSpace)
    (hb : between.all isSpace) (he : behind.all isSpace) {items : List (Text × List Event)}
    (h : ∀ i ∈ items, IsItem f frames i) :
    Gives frames .value
      (f.opener :: (front ++ joined (',' :: between) (items.map (·.1)) ++ behind ++ [f.closer]))
      (f.startEvent :: items.flatMap (·.2) ++ [f.endEvent]) frames .more := by
  have start : Gives frames .value (f.opener :: front) [f.startEvent] (f :: frames) f.first :=
    (gives_opener f).append (.blanks hf)
  by_cases hne : items = []
  · subst hne
    have stop : Gives (f :: frames) f.first (behind ++ [f.closer]) [f.endEvent] frames .more :=
      (Gives.blanks he).append (gives_closer f (.inl rfl))
    simpa [joined] using start.append stop
  · have stop : Gives (f :: frames) .more (behind ++ [f.closer]) [f.endEvent] frames .more :=
      (Gives.blanks he).append (gives_closer f (.inr rfl))
    simpa using (start.append (gives_joined hb hne h (.inl rfl))).append stop

/-- Blanks may come before an item. -/
theorem IsItem.behind {front : Text} (hf : front.all isSpace) {i : Text × List Event}
    (h : IsItem f frames i) : IsItem f frames (front ++ i.1, i.2) := by
  intro want hw
  exact (Gives.blanks hf).append (h want hw)

/-- A frame without blanks. -/
theorem gives_compact_frame {items : List (Text × List Event)}
    (h : ∀ i ∈ items, IsItem f frames i) :
    Gives frames .value ([f.opener] ++ joined "," (items.map (·.1)) ++ [f.closer])
      (f.startEvent :: items.flatMap (·.2) ++ [f.endEvent]) frames .more := by
  have frame := gives_frame [] [] [] rfl rfl rfl h
  simpa using frame

theorem all_isSpace_indent (depth : Nat) : (indent depth).all isSpace := by
  rw [List.all_eq_true]
  intro c hc
  rw [List.eq_of_mem_replicate hc]
  rfl

/-- A frame with its items on lines of their own. -/
theorem gives_enclosed (depth : Nat) {items : List (Text × List Event)}
    (h : ∀ i ∈ items, IsItem f frames i) :
    Gives frames .value (enclosed [f.opener] [f.closer] depth (items.map (·.1)))
      (f.startEvent :: items.flatMap (·.2) ++ [f.endEvent]) frames .more := by
  have lines : ∀ i ∈ items.map fun i => (indent (depth + 1) ++ i.1, i.2), IsItem f frames i := by
    intro i hi
    obtain ⟨j, hj, rfl⟩ := List.mem_map.1 hi
    exact (h j hj).behind (all_isSpace_indent (depth + 1))
  have last : ("\n" ++ indent depth : Text).all isSpace := by
    rw [List.all_append, all_isSpace_indent]
    rfl
  have evs : (items.map fun i => (indent (depth + 1) ++ i.1, i.2)).flatMap (·.2) =
      items.flatMap (·.2) :=
    List.flatMap_map ..
  cases items with
  | nil => exact gives_compact_frame h
  | cons i is =>
    have frame := gives_frame "\n" "\n" ("\n" ++ indent depth) rfl rfl last lines
    rw [evs, List.map_map] at frame
    simpa [enclosed, Function.comp_def] using frame

/-! ## Trees -/

theorem isItem_quoted (t : Text) : IsItem .list frames (quoted t, [.text t]) := by
  intro want hw
  exact gives_quoted t hw.symm

theorem isItem_field {gap : Text} (hg : gap.all isSpace) (name : Text) {v : Text}
    {evs : List Event} (h : Gives (.object :: frames) .value v evs (.object :: frames) .more) :
    IsItem .object frames (quoted name ++ ":" ++ gap ++ v, .key name :: evs) := by
  intro want hw
  have key : Gives (.object :: frames) want (quoted name ++ ":" ++ gap) [.key name]
      (.object :: frames) .value := by
    simpa using (gives_key name hw.symm).append (.blanks hg)
  exact key.append h

/-- The texts of a list with their events. -/
def textItems (ts : List Text) : List (Text × List Event) :=
  ts.map fun t => (quoted t, [.text t])

/-- The fields of an object with their events; `value` is how a value is written. -/
def fieldItems (gap : Text) (value : Tree → Text) (fs : List (Text × Tree)) :
    List (Text × List Event) :=
  fs.map fun f => (quoted f.1 ++ ":" ++ gap ++ value f.2, .key f.1 :: f.2.events)

theorem isItem_of_mem_textItems (ts : List Text) :
    ∀ i ∈ textItems ts, IsItem .list frames i := by
  intro i hi
  obtain ⟨t, _, rfl⟩ := List.mem_map.1 hi
  exact isItem_quoted t

theorem map_textItems (ts : List Text) : (textItems ts).map (·.1) = ts.map quoted :=
  List.map_map ..

theorem flatMap_textItems (ts : List Text) : (textItems ts).flatMap (·.2) = ts.map .text := by
  rw [textItems, List.flatMap_map, List.map_eq_flatMap]

theorem map_compactFields (fs : List (Text × Tree)) :
    (fieldItems [] compact fs).map (·.1) = compactFields fs := by
  induction fs with
  | nil => rw [compactFields, fieldItems, List.map_nil, List.map_nil]
  | cons f fs ih =>
    rw [compactFields, ← ih]
    simp [fieldItems]

theorem map_wideFields (depth : Nat) (fs : List (Text × Tree)) :
    (fieldItems " " (wide depth) fs).map (·.1) = wideFields depth fs := by
  induction fs with
  | nil => rw [wideFields, fieldItems, List.map_nil, List.map_nil]
  | cons f fs ih =>
    rw [wideFields, ← ih]
    simp [fieldItems]

theorem flatMap_fieldItems (gap : Text) (value : Tree → Text) (fs : List (Text × Tree)) :
    (fieldItems gap value fs).flatMap (·.2) = Tree.fieldEvents fs := by
  induction fs with
  | nil => rw [Tree.fieldEvents, fieldItems, List.map_nil, List.flatMap_nil]
  | cons f fs ih =>
    rw [Tree.fieldEvents, ← ih]
    simp [fieldItems]

mutual

theorem gives_compact (frames : List Frame) :
    (v : Tree) → Gives frames .value (compact v) v.events frames .more
  | .bool b => by
    rw [compact, Tree.events]
    exact gives_bool b
  | .text t => by
    rw [compact, Tree.events]
    exact gives_quoted t (.inl rfl)
  | .texts ts => by
    rw [compact, Tree.events, ← map_textItems, ← flatMap_textItems]
    exact gives_compact_frame (isItem_of_mem_textItems ts)
  | .object fs => by
    rw [compact, Tree.events, ← map_compactFields, ← flatMap_fieldItems [] compact]
    exact gives_compact_frame (isItem_compactField frames fs)

theorem isItem_compactField (frames : List Frame) :
    (fs : List (Text × Tree)) → ∀ i ∈ fieldItems [] compact fs, IsItem .object frames i
  | [] => by simp [fieldItems]
  | (name, v) :: fs => by
    rw [fieldItems, List.map_cons]
    refine List.forall_mem_cons.2 ⟨?_, isItem_compactField frames fs⟩
    exact isItem_field rfl name (gives_compact (.object :: frames) v)

end

mutual

theorem gives_wide (frames : List Frame) (depth : Nat) :
    (v : Tree) → Gives frames .value (wide depth v) v.events frames .more
  | .bool b => by
    rw [wide, Tree.events]
    exact gives_bool b
  | .text t => by
    rw [wide, Tree.events]
    exact gives_quoted t (.inl rfl)
  | .texts ts => by
    rw [wide, Tree.events, ← map_textItems, ← flatMap_textItems]
    exact gives_enclosed depth (isItem_of_mem_textItems ts)
  | .object fs => by
    rw [wide, Tree.events, ← map_wideFields, ← flatMap_fieldItems " " (wide (depth + 1))]
    exact gives_enclosed depth (isItem_wideField frames (depth + 1) fs)

theorem isItem_wideField (frames : List Frame) (depth : Nat) :
    (fs : List (Text × Tree)) → ∀ i ∈ fieldItems " " (wide depth) fs, IsItem .object frames i
  | [] => by simp [fieldItems]
  | (name, v) :: fs => by
    rw [fieldItems, List.map_cons]
    refine List.forall_mem_cons.2 ⟨?_, isItem_wideField frames depth fs⟩
    exact isItem_field rfl name (gives_wide (.object :: frames) depth v)

end

/-! ## Texts -/

theorem eventsFrom_nil : eventsFrom [] .more [] = [.finish] := by
  rw [eventsFrom_eq]
  rfl

end Event

theorem events_compact (v : Tree) : events (compact v) = v.events ++ [.finish] := by
  have read := Event.gives_compact [] v []
  rw [List.append_nil, Event.eventsFrom_nil] at read
  exact read

theorem events_document (v : Tree) : events (document v) = v.events ++ [.finish] := by
  have feed : Event.Gives [] .more "\n" [] [] .more := Event.Gives.blanks rfl
  have read := ((Event.gives_wide [] 0 v).append feed) []
  rw [List.append_nil, List.append_nil, Event.eventsFrom_nil] at read
  exact read

end Json

end Inspector
