import Inspector.Proofs.Appearance.LastWrite
import Inspector.Proofs.Layout.LastWrite
import Inspector.Proofs.Layout.Spelling
import Inspector.Proofs.Position.LastWrite
import Inspector.Proofs.Stroke.LastWrite

/-!
# Earlier values, in every property but the fill

Of the values of one kind the last one that is taken counts. An earlier one, taken or refused,
leaves no trace in the classes, not even in their order, whatever stands between the two and behind
them. A fill is left out: there a token may change the type that later ones are read by.

    Gives k t → Gives k u → u is taken →
      xs ++ t :: ys ++ u :: zs and xs ++ ys ++ u :: zs have the same classes     (reading_without)
-/

namespace Inspector.Element

/-- Deleting a value before a later one of its kind that is taken without an error leaves the
classes of a stroke, an appearance, a position, and a layout in a settled mode as they are, in their
order. A property string is read by its tokens, a layout inside a wrapper by the tokens inside. -/
theorem earlier_values_leave_no_trace (xs ys zs : List Token) (t u : Token) :
    (∀ k, Stroke.Gives k t → Stroke.Gives k u →
      ((Stroke.run (xs ++ t :: ys)).step u).errors = (Stroke.run (xs ++ t :: ys)).errors →
      (Stroke.reading (xs ++ t :: ys ++ u :: zs)).classes =
        (Stroke.reading (xs ++ ys ++ u :: zs)).classes) ∧
    (∀ k, Appearance.Gives k t → Appearance.Gives k u →
      ((Appearance.run (xs ++ t :: ys)).step u).draft.errors =
        (Appearance.run (xs ++ t :: ys)).draft.errors →
      (Appearance.reading (xs ++ t :: ys ++ u :: zs)).classes =
        (Appearance.reading (xs ++ ys ++ u :: zs)).classes) ∧
    (∀ k, Position.Gives k t → Position.Gives k u →
      (((xs ++ t :: ys).foldl Position.State.step
          (Position.flagged (xs ++ t :: ys ++ u :: zs))).step u).draft.errors =
        ((xs ++ t :: ys).foldl Position.State.step
          (Position.flagged (xs ++ t :: ys ++ u :: zs))).draft.errors →
      (Position.reading (xs ++ t :: ys ++ u :: zs)).report.classes =
        (Position.reading (xs ++ ys ++ u :: zs)).report.classes) ∧
    (∀ k mode, Layout.Gives k t → Layout.Gives k u →
      ((Layout.run ⟨mode, xs ++ t :: ys, none⟩).step mode u).draft.errors =
        (Layout.run ⟨mode, xs ++ t :: ys, none⟩).draft.errors →
      (Layout.Resolution.reading ⟨mode, xs ++ t :: ys ++ u :: zs, none⟩).report.classes =
        (Layout.Resolution.reading ⟨mode, xs ++ ys ++ u :: zs, none⟩).report.classes) ∧
    (∀ input,
      Stroke.read input = Stroke.reading (tokens input) ∧
      Appearance.read input = Appearance.reading (tokens input) ∧
      Position.read input = Position.reading (tokens input)) ∧
    ∀ text mode inner, Layout.Mode.wrapper? text = some (mode, inner) →
      Layout.read (some text) = Layout.Resolution.reading ⟨mode, tokenize inner, none⟩ := by
  refine ⟨fun k ht hu => Stroke.reading_without ht hu xs ys zs,
    fun k ht hu => Appearance.reading_without ht hu xs ys zs,
    fun k ht hu => Position.reading_without ht hu xs ys zs,
    fun k mode ht hu => Layout.reading_without ht hu xs ys zs mode,
    fun input => ⟨Stroke.read_eq input, Appearance.read_eq input, Position.read_eq input⟩, ?_⟩
  intro text mode inner hw
  rw [Layout.read_eq, Layout.resolve_of_wrapper? hw]

/-- A refused color and a hidden element, an edge that an offset replaces, and a shared gap whose
place a gap of its own takes: none of them is seen in the end. -/
theorem earlier_values_of_each_property :
    (Stroke.reading [.pair "color" "foo", .pair "style" "dashed", .pair "color" "#f00"]).classes =
        (Stroke.reading [.pair "style" "dashed", .pair "color" "#f00"]).classes ∧
    (Appearance.reading [.bare "hidden", .pair "opacity" "40", .bare "visible"]).classes =
        (Appearance.reading [.pair "opacity" "40", .bare "visible"]).classes ∧
    (Position.reading
          [.bare "left", .pair "z" "9", .pair "x" "4", .bare "detached"]).report.classes =
        (Position.reading [.pair "z" "9", .pair "x" "4", .bare "detached"]).report.classes ∧
    (Layout.Resolution.reading
          ⟨.auto, [.pair "gap" "auto", .bare "top-left", .pair "gap" "4"], none⟩).report.classes =
      (Layout.Resolution.reading
          ⟨.auto, [.bare "top-left", .pair "gap" "4"], none⟩).report.classes := by
  have stroke := (earlier_values_leave_no_trace [] [.pair "style" "dashed"] []
    (.pair "color" "foo") (.pair "color" "#f00")).1 .color ⟨_, rfl, rfl⟩ ⟨_, rfl, rfl⟩
    (by decide +kernel)
  have appearance := (earlier_values_leave_no_trace [] [.pair "opacity" "40"] []
    (.bare "hidden") (.bare "visible")).2.1 .visibility ⟨_, rfl, rfl⟩ ⟨_, rfl, rfl⟩
    (by decide +kernel)
  have edge : Position.Gives (.place .horizontal) (.bare "left") := by
    intro p hp
    obtain rfl : (.horizontal, "left-0".toList) = p := Option.some.inj hp
    rfl
  have offset : Position.Gives (.place .horizontal) (.pair "x" "4") := rfl
  have position := (earlier_values_leave_no_trace [] [.pair "z" "9"] [.bare "detached"]
    (.bare "left") (.pair "x" "4")).2.2.1 (.place .horizontal) edge offset (by decide +kernel)
  have layout := (earlier_values_leave_no_trace [] [.bare "top-left"] []
    (.pair "gap" "auto") (.pair "gap" "4")).2.2.2.1 .gap .auto ⟨_, rfl, rfl⟩ ⟨_, rfl, rfl⟩
    (by decide +kernel)
  exact ⟨stroke, appearance, position, layout⟩

end Inspector.Element
