import Inspector.Color
import Inspector.Proofs.Number.Extent

/-!
# Units that a field admits

A field for a number admits some units; a literal in any other is foreign to the field, and the
readers of extents, lengths, sizes and shares refuse it whatever its number is. A literal that is
refused as a number is not taken for a color either.

    Gauge.extent.IsForeign q v → pixels? v = none                             (pixels?_of_isForeign)
    Gauge.length.IsForeign q v → ofLength? v = none ∧ ofSize? v = none
                                                     (ofLength?_of_isForeign, ofSize?_of_isForeign)
    Gauge.share.IsForeign q v → ofPercent? v = none                        (ofPercent?_of_isForeign)
    Quantity.ofText? t = some q → Color.ofText? t lead = none          (Quantity.color?_of_quantity)
-/

namespace Inspector

open Text

/-- How a field measures the number that it takes. -/
inductive Gauge where
  /-- Spaces between children, gaps, paddings and weights. -/
  | extent
  /-- Dimensions, offsets and radii. -/
  | length
  /-- Opacities. -/
  | share
  /-- Rotations. -/
  | angle
  /-- No number is taken at all. -/
  | nothing
  deriving DecidableEq, Repr

namespace Gauge

/-- The units that are admitted, none being one of them. -/
def units : Gauge → List (Option Measure)
  | .extent => [none, some .px]
  | .length => [none, some .px, some .percent]
  | .share => [none, some .percent]
  | .angle => [none, some .deg]
  | .nothing => []

/-- The text is a literal of the quantity, in a unit that is not admitted. -/
def IsForeign (g : Gauge) (q : Quantity) (v : Text) : Prop :=
  Quantity.ofText? v = some q ∧ q.unit ∉ g.units

instance (g : Gauge) (q : Quantity) (v : Text) : Decidable (g.IsForeign q v) :=
  inferInstanceAs (Decidable (_ ∧ _))

/-- Degrees are all that a length does not admit. -/
theorem eq_deg_of_not_mem : ∀ {unit : Option Measure}, unit ∉ length.units → unit = some .deg
  | none, h | some .px, h | some .percent, h => absurd (by decide) h
  | some .deg, _ => rfl

/-- Pixels and degrees are what a share does not admit. -/
theorem eq_px_or_deg_of_not_mem :
    ∀ {unit : Option Measure}, unit ∉ share.units → unit = some .px ∨ unit = some .deg
  | none, h | some .percent, h => absurd (by decide) h
  | some .px, _ => .inl rfl
  | some .deg, _ => .inr rfl

end Gauge

/-! ## Readers -/

namespace Fragment

variable {v : Text} {q : Quantity}

theorem pixels?_of_isForeign (h : Gauge.extent.IsForeign q v) : pixels? v = none := by
  obtain ⟨hq, unit⟩ := h
  have other : q.isPixels = false := by
    rw [Bool.eq_false_iff]
    intro pixels
    rw [Quantity.isPixels, Bool.or_eq_true, beq_iff_eq, beq_iff_eq] at pixels
    exact unit (by simpa [Gauge.units] using pixels)
  rw [pixels?, hq, Option.filter_some, other]
  rfl

theorem ofExtent?_of_isForeign (h : Gauge.extent.IsForeign q v) : ofExtent? v = none := by
  rw [ofExtent?, ofPixels?, pixels?_of_isForeign h]
  rfl

theorem ofLength?_of_isForeign (h : Gauge.length.IsForeign q v) : ofLength? v = none := by
  obtain ⟨hq, unit⟩ := h
  rw [ofLength?, hq, Option.bind_some, Gauge.eq_deg_of_not_mem unit]

theorem ofSize?_of_isForeign (h : Gauge.length.IsForeign q v) : ofSize? v = none := by
  rw [ofSize?_of_quantity h.1, ofLength?_of_isForeign h]
  rfl

theorem ofPercent?_of_isForeign (h : Gauge.share.IsForeign q v) : ofPercent? v = none := by
  obtain ⟨hq, unit⟩ := h
  rw [ofPercent?, hq, Option.bind_some, if_pos (Gauge.eq_px_or_deg_of_not_mem unit)]

end Fragment

/-! ## Colors -/

namespace Quantity

/-- A literal is no color, if the lead of the property is no part of one. -/
theorem color?_of_quantity {t : Text} {q : Quantity} (hq : ofText? t = some q) {lead : Text}
    (stray : lead.any isStray) : Color.ofText? t lead = none := by
  have trimmed := ofText?_trim hq
  have hex : Color.isHex (trim t) = false := by
    rw [Bool.eq_false_iff]
    intro h
    unfold Color.isHex at h
    split at h
    · next code ht =>
      have clean := any_isStray trimmed
      rw [ht] at clean
      cases clean
    · cases h
  have palette : Color.isPalette (trim t) = false := by
    have names : ∀ name ∈ Color.plain, name.any isStray := by decide
    have hues : ∀ hue ∈ Color.hues, hue.any isStray := by decide
    rw [Color.isPalette, Bool.or_eq_false_iff, List.any_eq_false]
    constructor
    · rw [Bool.eq_false_iff]
      intro h
      have named := names _ (List.contains_iff_mem.1 h)
      rw [any_isStray trimmed] at named
      cases named
    · intro hue h
      rw [after?_of_isStray trimmed (hues hue h)]
      exact Bool.false_ne_true
  have layer : Color.isLayer (trim t) = false := by
    rw [Color.isLayer, after?_of_isStray trimmed (by decide)]
  rw [Color.ofText?]
  simp only [hex, palette, layer, after?_of_isStray trimmed stray]
  rfl

end Quantity

end Inspector
