import Inspector.Proofs.Appearance.Opacity
import Inspector.Proofs.Fill.Opacity
import Inspector.Proofs.Stroke.Opacity

/-!
# Opacities and visibilities in reports

An appearance, a fill and a stroke show the last valid opacity that their tokens give, and an
appearance the last valid visibility. Values that are refused change nothing, and nothing is missing
that some token gives.

    ts ≠ [] → Appearance.ShowsLast ts (Appearance.reading ts) ∧
      Fill.ShowsLast ts (Fill.reading ts) ∧ Stroke.ShowsLast ts (Stroke.reading ts) ∧ …
                                                                                (last_opacity_shown)
-/

namespace Inspector.Element

open Text

/-- What counts of all opacities and visibilities is the last valid one; the values that count as
an opacity are the numerals from 0 to 100, in percent or without a unit. -/
theorem last_opacity_shown {ts : List Token} (written : ts ≠ []) :
    Appearance.ShowsLast ts (Appearance.reading ts) ∧
    Fill.ShowsLast ts (Fill.reading ts) ∧
    Stroke.ShowsLast ts (Stroke.reading ts) ∧
    (∀ value f, Fragment.ofPercent? value = some f ↔
      ∃ negative units, IsPercent value negative units ∧ f = percentText units) ∧
    ∀ input, Appearance.read input = Appearance.reading (tokens input) ∧
      Fill.read input = Fill.reading (tokens input) ∧
      Stroke.read input = Stroke.reading (tokens input) :=
  ⟨Appearance.showsLast_reading written, Fill.showsLast_reading written,
    Stroke.showsLast_reading written, fun _ _ => Fragment.ofPercent?_eq_some_iff,
    fun input => ⟨Appearance.read_eq input, Fill.read_eq input, Stroke.read_eq input⟩⟩

/-- A later opacity that is out of range leaves the half one before it, and is no missing one. -/
theorem half_opacity_shown :
    [Token.pair "opacity" "50%", .pair "Opacity" "101"] ≠ [] ∧
    (Appearance.reading [.pair "opacity" "50%", .pair "Opacity" "101"]).classes =
      ["opacity-50".toList] ∧
    Appearance.ShowsLast [.pair "opacity" "50%", .pair "Opacity" "101"]
      (Appearance.reading [.pair "opacity" "50%", .pair "Opacity" "101"]) :=
  ⟨List.cons_ne_nil _ _, by decide +kernel, (last_opacity_shown (List.cons_ne_nil _ _)).1⟩

end Inspector.Element
