import Inspector.Proofs.Appearance.Units
import Inspector.Proofs.Fill.Units
import Inspector.Proofs.Layout.Units
import Inspector.Proofs.Position.Units
import Inspector.Proofs.Stroke.Units

/-!
# Units in an element

Each field for a number heeds the unit of the literal that it is given: an extent takes pixels, a
length and a radius take pixels or percent, a share percent, an angle degrees, and each a literal
without a unit. In any other unit the literal comes to one error, or to a warning where it stands
bare, and to no class, however it is spelled and however deep in groups it lies. Only a radius looks
whether the number is zero before it looks at the unit, so that zero degrees are a radius, and the
only quantity that is taken in a unit that its field does not admit.

    Quantity.ofText? v = some q →
      Layout.HeedsUnits q ∧ … ∧ (Appearance.HeedsUnits q ↔ q is no zero in degrees)  (units_heeded)
-/

namespace Inspector.Element

open Text

/-- No property takes a literal in a foreign unit, but for zero degrees: they are taken for a radius
and for nothing else. -/
theorem units_heeded {v : Text} {q : Quantity} (hq : Quantity.ofText? v = some q) :
    Layout.HeedsUnits q ∧ Position.HeedsUnits q ∧ Fill.HeedsUnits q ∧ Stroke.HeedsUnits q ∧
      (Appearance.HeedsUnits q ↔ ¬ (q.unit = some .deg ∧ q.magnitude.isZero)) :=
  ⟨Layout.heedsUnits q, Position.heedsUnits q, Fill.heedsUnits q, Stroke.heedsUnits q,
    Appearance.heedsUnits_iff hq⟩

/-- Two degrees for one side of a weight, for an entry of a padding, for a corner, and alone. -/
theorem foreign_units_refused :
    "stroke: invalid t stroke weight '2deg'".toList ∈
      (Stroke.read (some "color=#fff, weight=(1px, t-2deg)")).errors ∧
    "layout: invalid padding-x '2deg', expected pixels".toList ∈
      (Layout.read (some "Auto\x7bflow=row, w-1, h-1, p=(1, (x=2deg))\x7d")).report.errors ∧
    "appearance: invalid tl corner radius '2deg'".toList ∈
      (Appearance.read (some "visible, opacity=100, radius-tl=2deg")).errors ∧
    "fill: unrecognized token '2deg'".toList ∈ (Fill.read (some "color=#fff, 2deg")).warnings := by
  let two : Quantity := ⟨.finite false (2 * Binary64.unitsPerOne), some .deg⟩
  have hq : Quantity.ofText? "2deg" = some two := by decide +kernel
  obtain ⟨layout, -, fill, stroke, appearance⟩ := units_heeded hq
  exact ⟨(stroke.told _).refused ⟨.extent, "2deg", .invalidSideWeight .top "2deg"⟩
      (by decide +kernel) (by decide +kernel),
    (layout.told _).refused ⟨.extent, "2deg", .invalidPadding .x "2deg"⟩ (by decide +kernel)
      (by decide +kernel),
    ((appearance.2 (by decide +kernel)).told _).refused
      ⟨.length, "2deg", .invalidCornerRadius .topLeft "2deg"⟩ (by decide +kernel)
      (by decide +kernel),
    (fill.told _).passed "2deg" (by decide +kernel) (by decide +kernel)⟩

/-- Degrees are no unit of a radius, and yet zero degrees are one, of all corners, of one corner,
and in a bundle. -/
theorem zero_degrees_taken :
    (∃ q ∈ Quantity.ofText? "0deg", q.unit ∉ Gauge.length.units) ∧
    Appearance.read (some "visible, opacity=100, radius=0deg") =
      ⟨["opacity-100", "rounded-none"], [], []⟩ ∧
    Appearance.read (some "visible, opacity=100, radius-tl=0deg") =
      ⟨["opacity-100", "rounded-tl-none"], [], []⟩ ∧
    Appearance.read (some "visible, opacity=100, radius=(4px, 0deg)") =
      ⟨["opacity-100", "rounded-tl-[4px]", "rounded-tr-none"], [], []⟩ := by
  decide +kernel

end Inspector.Element
