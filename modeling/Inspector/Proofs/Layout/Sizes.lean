import Inspector.Proofs.Layout.Required
import Inspector.Proofs.Layout.Spelling
import Inspector.Proofs.Token.Plain

/-!
# The spellings of a layout's dimensions

A value of a dimension is written as an item or by a key, on its own or in a group of dimensions.
All of them set the same size in Auto layout, which refuses none of them and so quotes none, and a
layout inside an Auto wrapper reads the same with any of them, whatever stands around it.

    d.IsSpelled v text → ∃ t, IsToken text t ∧ ∀ s, s.step .auto t = s.setSize d v
                                                                               (step_of_isSpelled)
    d.IsSpelled v text → d.IsSpelled v text' → the readings of both are equal       (read_spelled)
-/

namespace Inspector.Layout

open Text Inspector.Group

/-! ## Spellings -/

namespace Dimension

/-- An item or a key of the dimension with the value `v`. -/
inductive IsItem (d : Dimension) (v : Text) : Text → Prop where
  | item : IsItem d v (d.short ++ "-" ++ v)
  | key {key : Text} (hkey : key = d.short ∨ key = d.name) : IsItem d v (keyed key v)

def groupKeys : List Text := ["dimensions", "size"]

/-- How the value `v` of a dimension is written: on its own, or in a group. -/
inductive IsSpelled (d : Dimension) (v : Text) : Text → Prop where
  | alone {text : Text} (h : d.IsItem v text) : IsSpelled d v text
  | grouped {o c : Char} {key text : Text} (hoc : closerOf? o = some c) (hkey : key ∈ groupKeys)
    (h : d.IsItem v text) : IsSpelled d v (grouped o c key text)

end Dimension

namespace Entry

variable {d : Dimension} {v text : Text}

theorem ofToken_of_groupKey {key : Text} (hkey : key ∈ Dimension.groupKeys) (value : Text) :
    ofToken (.pair key value) = (tokenize (unwrapped value)).map ofDimensionItem := by
  have own : key = "dimensions" ∨ key = "size" := by simpa [Dimension.groupKeys] using hkey
  rcases own with rfl | rfl
  · rfl
  · rfl

/-- An item of a dimension is one token, and asks for the same size alone and in a group. -/
theorem ofToken_of_isItem (plain : IsPlain v) (h : d.IsItem v text) :
    ∃ t, IsToken text t ∧ ofToken t = [.size t d v] ∧ ofDimensionItem t = .size t d v := by
  cases h with
  | item =>
    have short : IsPlain d.short := by cases d <;> decide
    have whole : IsPlain (d.short ++ "-" ++ v) := by
      simpa using short.append_cons plain (c := '-') (by decide) (by decide)
    have item : Dimension.ofItem? (d.short ++ "-" ++ v) = some (d, v) :=
      Dimension.ofItem?_eq_some_iff.2 (afterWord?_append _ v)
    refine ⟨_, .bare whole (by simp), ?_, ?_⟩
    · rw [ofToken, ofBare_of_item item]
    · simp only [ofDimensionItem, item]
  | @key key hkey =>
    have own : IsPlain key ∧ lower key = key := by
      rcases hkey with rfl | rfl
      · cases d <;> decide
      · cases d <;> decide
    have found := Dimension.ofKey?_eq_some_iff.2 hkey
    refine ⟨_, .keyed own.1 plain, ?_, ?_⟩
    · rw [ofToken, own.2, ofPair_of_key found]
    · simp only [ofDimensionItem, own.2, found, Option.map_some]

end Entry

/-! ## Readings -/

/-- A spelling is one token, which sets the size in Auto layout and does no more. -/
theorem State.step_of_isSpelled {d : Dimension} {v text : Text} (plain : IsPlain v)
    (h : d.IsSpelled v text) : ∃ t, IsToken text t ∧ ∀ s, State.step .auto s t = s.setSize d v := by
  have sized (t : Token) (s : State) : s.apply .auto (.size t d v) = s.setSize d v := by
    simp [State.apply]
  cases h with
  | alone h =>
    obtain ⟨t, ht, he, -⟩ := Entry.ofToken_of_isItem plain h
    refine ⟨t, ht, fun s => ?_⟩
    rw [State.step, he]
    exact sized t s
  | @grouped o c key text hoc hkey h =>
    obtain ⟨i, hi, -, he⟩ := Entry.ofToken_of_isItem plain h
    have own : IsPlain key := (by decide : ∀ key ∈ Dimension.groupKeys, IsPlain key) key hkey
    obtain ⟨value, ht, hs⟩ := IsToken.exists_grouped hoc own hi.balanced
    refine ⟨_, ht, fun s => ?_⟩
    rw [State.step, Entry.ofToken_of_groupKey hkey, unwrapped, hs, Option.getD_some, hi.tokens,
      List.map_singleton, he]
    exact sized i s

/-- All spellings of a dimension are read alike within an Auto wrapper. -/
theorem read_spelled {d : Dimension} {v text text' : Text} (plain : IsPlain v)
    (h : d.IsSpelled v text) (h' : d.IsSpelled v text') {before after : List Text}
    (closed : ∀ p ∈ before, depthAfter 0 p = 0) {w w' : Text}
    (hw : Mode.wrapper? w = some (.auto, amid before after text))
    (hw' : Mode.wrapper? w' = some (.auto, amid before after text')) :
    read (some w) = read (some w') := by
  obtain ⟨t, ht, step⟩ := State.step_of_isSpelled plain h
  obtain ⟨t', ht', step'⟩ := State.step_of_isSpelled plain h'
  have runs : run ⟨.auto, tokenize (amid before after text), none⟩ =
      run ⟨.auto, tokenize (amid before after text'), none⟩ := by
    rw [tokenize_amid closed ht, tokenize_amid closed ht', run, run, List.foldl_append,
      List.foldl_append, List.foldl_cons, List.foldl_cons, step, step']
  rw [read_eq, read_eq, resolve_of_wrapper? hw, resolve_of_wrapper? hw', Resolution.reading, runs,
    Resolution.reading]

end Inspector.Layout
