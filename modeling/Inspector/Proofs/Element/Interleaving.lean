import Inspector.Proofs.Appearance.Family
import Inspector.Proofs.Layout.Interleaving
import Inspector.Proofs.Layout.Spelling
import Inspector.Proofs.Position.Family
import Inspector.Proofs.Stroke.Family

/-!
# Interleaved tokens, in every property but the fill

Tokens about different things do not disturb each other: a stroke, an appearance, a position, and a
layout in a settled mode depend on the order of the tokens within each family, but not on how the
families are mixed. A fill is left out: there the type that one token asks for decides what the
color and the image of others come to.

    SameFamilies family ts us → (reading ts).Alike (reading us)          (reading_interleaved)
-/

namespace Inspector.Element

/-- Two lists of tokens with the same tokens of each family in the same order, however the families
are interleaved, are read alike: to the same set of classes, to the same errors and warnings as
often, and as fixed or not. A property string is read by its tokens, a layout inside a wrapper by
the tokens inside. -/
theorem interleavings_agree (ts us : List Token) :
    (SameFamilies Stroke.family ts us → (Stroke.reading ts).Alike (Stroke.reading us)) ∧
    (SameFamilies Appearance.family ts us →
      (Appearance.reading ts).Alike (Appearance.reading us)) ∧
    (SameFamilies Position.family ts us →
      (Position.reading ts).report.Alike (Position.reading us).report ∧
      (Position.reading ts).isFixed = (Position.reading us).isFixed) ∧
    (SameFamilies Layout.family ts us → ∀ mode,
      (Layout.Resolution.reading ⟨mode, ts, none⟩).report.Alike
        (Layout.Resolution.reading ⟨mode, us, none⟩).report) ∧
    (∀ input, tokens input = ts →
      Stroke.read input = Stroke.reading ts ∧
      Appearance.read input = Appearance.reading ts ∧
      Position.read input = Position.reading ts) ∧
    ∀ text mode inner, Layout.Mode.wrapper? text = some (mode, inner) → tokenize inner = ts →
      Layout.read (some text) = Layout.Resolution.reading ⟨mode, ts, none⟩ := by
  refine ⟨Stroke.reading_interleaved, Appearance.reading_interleaved,
    Position.reading_interleaved, Layout.reading_interleaved, ?_, ?_⟩
  · intro input h
    rw [Stroke.read_eq, Appearance.read_eq, Position.read_eq, h]
    exact ⟨rfl, rfl, rfl⟩
  · intro text mode inner hw h
    rw [Layout.read_eq, Layout.resolve_of_wrapper? hw, h]

/-- A stroke whose two weights stay in their order, and a layout in which the alignment stands
before or after the flow that it depends on. -/
theorem interleavings_of_weights_and_flow :
    (SameFamilies Stroke.family (tokenize "weight=2,color=#f00,weight-t=4")
        (tokenize "color=#f00,weight=2,weight-t=4") ∧
      (Stroke.reading (tokenize "weight=2,color=#f00,weight-t=4")).Alike
        (Stroke.reading (tokenize "color=#f00,weight=2,weight-t=4"))) ∧
    (SameFamilies Appearance.family (tokenize "opacity=50,visible,radius=4")
        (tokenize "visible,radius=4,opacity=50") ∧
      (Appearance.reading (tokenize "opacity=50,visible,radius=4")).Alike
        (Appearance.reading (tokenize "visible,radius=4,opacity=50"))) ∧
    (SameFamilies Position.family (tokenize "x=4,rotation=none,detached")
        (tokenize "detached,x=4,rotation=none") ∧
      (Position.reading (tokenize "x=4,rotation=none,detached")).isFixed =
        (Position.reading (tokenize "detached,x=4,rotation=none")).isFixed) ∧
    SameFamilies Layout.family (tokenize "align=top,w=1,flow=column,h=1")
        (tokenize "w=1,h=1,flow=column,align=top") ∧
      Layout.Mode.wrapper? "Auto\x7balign=top,w=1,flow=column,h=1\x7d" =
        some (Layout.Mode.auto, "align=top,w=1,flow=column,h=1".toList) ∧
      (Layout.read (some "Auto\x7balign=top,w=1,flow=column,h=1\x7d")).report.Alike
        (Layout.read (some "Auto\x7bw=1,h=1,flow=column,align=top\x7d")).report := by
  have weights : SameFamilies Stroke.family (tokenize "weight=2,color=#f00,weight-t=4")
      (tokenize "color=#f00,weight=2,weight-t=4") := by
    intro f
    cases f <;> decide
  have shown : SameFamilies Appearance.family (tokenize "opacity=50,visible,radius=4")
      (tokenize "visible,radius=4,opacity=50") := by
    intro f
    cases f <;> decide
  have placed : SameFamilies Position.family (tokenize "x=4,rotation=none,detached")
      (tokenize "detached,x=4,rotation=none") := by
    intro f
    cases f <;> decide
  have flowing : SameFamilies Layout.family (tokenize "align=top,w=1,flow=column,h=1")
      (tokenize "w=1,h=1,flow=column,align=top") := by
    intro f
    cases f <;> decide
  have first : Layout.Mode.wrapper? "Auto\x7balign=top,w=1,flow=column,h=1\x7d" =
      some (Layout.Mode.auto, "align=top,w=1,flow=column,h=1".toList) := by decide
  have second : Layout.Mode.wrapper? "Auto\x7bw=1,h=1,flow=column,align=top\x7d" =
      some (Layout.Mode.auto, "w=1,h=1,flow=column,align=top".toList) := by decide
  have stroke := interleavings_agree (tokenize "weight=2,color=#f00,weight-t=4")
    (tokenize "color=#f00,weight=2,weight-t=4")
  have appearance := interleavings_agree (tokenize "opacity=50,visible,radius=4")
    (tokenize "visible,radius=4,opacity=50")
  have position := interleavings_agree (tokenize "x=4,rotation=none,detached")
    (tokenize "detached,x=4,rotation=none")
  obtain ⟨-, -, -, layout, -, read⟩ :=
    interleavings_agree (tokenize "align=top,w=1,flow=column,h=1")
      (tokenize "w=1,h=1,flow=column,align=top")
  obtain ⟨-, -, -, -, -, read'⟩ :=
    interleavings_agree (tokenize "w=1,h=1,flow=column,align=top")
      (tokenize "align=top,w=1,flow=column,h=1")
  refine ⟨⟨weights, stroke.1 weights⟩, ⟨shown, appearance.2.1 shown⟩,
    ⟨placed, (position.2.2.1 placed).2⟩, flowing, first, ?_⟩
  rw [read _ _ _ first rfl, read' _ _ _ second rfl]
  exact layout flowing .auto

end Inspector.Element
