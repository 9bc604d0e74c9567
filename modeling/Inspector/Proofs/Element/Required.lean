import Inspector.Proofs.Layout.Required
import Inspector.Proofs.Position.Required

/-!
# The required values of layouts and positions

Which required values a report misses is exact, whatever is given and however it is spelled: a layout
asks for a width and a height, in Auto layout for a flow too, and says there what holds without an
alignment or a gap; a position asks for its flag and its rotation.

    Layout.ReportsRequired (Mode.resolve layout) (Layout.read layout).report ∧
      Position.ReportsRequired (tokens position) (Position.read position).report
                                                                        (required_values_reported)
-/

namespace Inspector.Element

open Text

/-- The reports about required values name those that no token gives, and no other. -/
theorem required_values_reported (layout position : Option Text) :
    Layout.ReportsRequired (Layout.Mode.resolve layout) (Layout.read layout).report ∧
      Position.ReportsRequired (tokens position) (Position.read position).report :=
  ⟨Layout.reportsRequired_read layout, Position.reportsRequired_read position⟩

/-- A width that cannot be read is not missing, and a bound of the height is no height. -/
example : (Layout.read (some "Auto\x7bw-?,max-h-fill,flow=?\x7d")).report.errors =
    ["layout: invalid width '?'", "layout: invalid flow '?'", "layout: missing height"] := by
  decide +kernel

end Inspector.Element
