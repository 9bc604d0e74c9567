import Inspector.Proofs.Appearance.Overrides
import Inspector.Proofs.Layout.Overrides
import Inspector.Proofs.Number.Extent
import Inspector.Proofs.Position.Overrides
import Inspector.Proofs.Quantity
import Inspector.Proofs.Stroke.Overrides

/-!
# Overrides in every property but the fill

Of each kind of values that nothing but a value of its own replaces, a report says as often that it
was set more than once as the accepted values change from one to the next. The values are compared
by their classes, so the same number spelled another way is no change.

    Alike pixelUnits v v' → ofSize? v = ofSize? v'                            (ofSize?_of_alike)
    a stroke, an appearance, a position, a layout tell the changes      (overrides_told_exactly)
-/

namespace Inspector

open Text

/-! ## Spellings of one number -/

namespace Quantity

/-- Both values write the same number, each in one of these units. -/
def Alike (units : List (Option Measure)) (v v' : Text) : Prop :=
  ∃ n n' unit unit', IsWritten (trim v) n unit ∧ IsWritten (trim v') n' unit' ∧
    unit ∈ units ∧ unit' ∈ units ∧ n.decimal = n'.decimal ∧ n.negative = n'.negative

theorem Alike.ofText? {units : List (Option Measure)} {v v' : Text} (h : Alike units v v') :
    ∃ x, ∃ unit ∈ units, ∃ unit' ∈ units,
      ofText? v = some ⟨x, unit⟩ ∧ ofText? v' = some ⟨x, unit'⟩ := by
  obtain ⟨n, n', unit, unit', written, written', hunit, hunit', same, sign⟩ := h
  refine ⟨n.value, unit, hunit, unit', hunit', ofText?_of_isWritten written, ?_⟩
  rw [Numeral.value_eq_of_decimal same sign]
  exact ofText?_of_isWritten written'

end Quantity

namespace Fragment

/-- What numbers in pixels are written in. -/
def pixelUnits : List (Option Measure) := [none, some .px]

/-- What percentages are written in. -/
def percentUnits : List (Option Measure) := [none, some .percent]

variable {v v' : Text}

theorem pixels?_of_unit {x : Binary64} {unit : Option Measure} (hu : unit ∈ pixelUnits)
    (hq : Quantity.ofText? v = some ⟨x, unit⟩) : pixels? v = some x := by
  have pixels : (Quantity.mk x unit).isPixels := by
    simp only [pixelUnits, List.mem_cons, List.not_mem_nil, or_false] at hu
    rcases hu with rfl | rfl <;> rfl
  exact pixels?_eq_some_iff.2 ⟨_, hq, pixels, rfl⟩

theorem exists_pixels?_of_alike (h : Quantity.Alike pixelUnits v v') :
    ∃ x, pixels? v = some x ∧ pixels? v' = some x := by
  obtain ⟨x, unit, hu, unit', hu', hv, hv'⟩ := h.ofText?
  exact ⟨x, pixels?_of_unit hu hv, pixels?_of_unit hu' hv'⟩

theorem ofSize?_of_alike (h : Quantity.Alike pixelUnits v v') : ofSize? v = ofSize? v' := by
  obtain ⟨x, hv, hv'⟩ := exists_pixels?_of_alike h
  rw [ofSize?_of_pixels? hv, ofSize?_of_pixels? hv']

theorem ofExtent?_of_alike (h : Quantity.Alike pixelUnits v v') : ofExtent? v = ofExtent? v' := by
  obtain ⟨x, hv, hv'⟩ := exists_pixels?_of_alike h
  rw [ofExtent?, ofPixels?, hv, ofExtent?, ofPixels?, hv']

theorem ofLength?_of_alike (h : Quantity.Alike pixelUnits v v') : ofLength? v = ofLength? v' := by
  obtain ⟨x, hv, hv'⟩ := exists_pixels?_of_alike h
  rw [ofLength?_of_pixels? hv, ofLength?_of_pixels? hv']

theorem ofPercent?_of_alike (h : Quantity.Alike percentUnits v v') :
    ofPercent? v = ofPercent? v' := by
  obtain ⟨x, unit, hu, unit', hu', hv, hv'⟩ := h.ofText?
  simp only [percentUnits, List.mem_cons, List.not_mem_nil, or_false] at hu hu'
  rw [ofPercent?, hv, ofPercent?, hv', Option.bind_some, Option.bind_some]
  rcases hu with rfl | rfl <;> rcases hu' with rfl | rfl <;> rfl

end Fragment

section

variable {v v' : Text}

theorem Layout.Entry.classes?_size_of_alike (h : Quantity.Alike Fragment.pixelUnits v v')
    (mode : Mode) (k : Lasting) (t t' : Token) (d : Dimension) :
    classes? mode k (.size t d v) = classes? mode k (.size t' d v') := by
  cases k with
  | size => simp only [classes?, Fragment.ofSize?_of_alike h]
  | spacing | flow => rfl

theorem Layout.Entry.classes?_spacing_of_alike (h : Quantity.Alike Fragment.pixelUnits v v')
    (mode : Mode) (k : Lasting) (t t' : Token) (axis : Spacing) :
    classes? mode k (.spacing t axis v) = classes? mode k (.spacing t' axis v') := by
  cases k with
  | spacing => simp only [classes?, Fragment.ofExtent?_of_alike h]
  | size | flow => rfl

theorem Position.Entry.classes_offset_of_alike (h : Quantity.Alike Fragment.pixelUnits v v')
    (detached : Bool) (k : Lasting) (t t' : Token) (axis : Axis) :
    classes detached k (.placement t (.offset axis v)) =
      classes detached k (.placement t' (.offset axis v')) := by
  cases k with
  | place =>
    simp only [classes, Entry.demands, Placement.demands, Fragment.ofLength?_of_alike h]
  | depth => rfl

end

/-! ## Overrides -/

namespace Element

/-- The report of a stroke, an appearance, a position or a layout tells of each kind of values how
often the accepted ones change, and the last of them is what counts. A number spelled another way is
no change. -/
theorem overrides_told_exactly (ts : List Token) (r : Layout.Resolution) :
    (∀ k : Stroke.Kind,
      (Stroke.reading ts).TellsChanges (overrideLine .stroke k.concern.title)
        (Stroke.accepted k ts) ∧
      (Stroke.run ts).classes.get? k.concern = (Stroke.accepted k ts).getLast?) ∧
    ((Appearance.reading ts).TellsChanges
        (overrideLine .appearance (Appearance.Superseded.opacity).title)
        (Appearance.accepted ts) ∧
      (Appearance.run ts).draft.classes.get? .opacity = (Appearance.accepted ts).getLast?) ∧
    (∀ k : Position.Lasting,
      (Position.reading ts).report.TellsChanges (overrideLine .position k.superseded.title)
        (Position.accepted k ts) ∧
      (Position.run ts).draft.classes.get? k.concern = (Position.accepted k ts).getLast?) ∧
    (∀ k : Layout.Lasting,
      r.reading.report.TellsChanges (overrideLine .layout k.superseded.title)
        (Layout.accepted r.mode k r.tokens) ∧
      (Layout.run r).draft.classes.get? k.concern =
        (Layout.accepted r.mode k r.tokens).getLast?) ∧
    (∀ input,
      Stroke.read input = Stroke.reading (tokens input) ∧
      Appearance.read input = Appearance.reading (tokens input) ∧
      Position.read input = Position.reading (tokens input) ∧
      Layout.read input = (Layout.Mode.resolve input).reading) ∧
    (∀ v v', Quantity.Alike Fragment.pixelUnits v v' →
      (∀ mode k t t' d, Layout.Entry.classes? mode k (.size t d v) =
        Layout.Entry.classes? mode k (.size t' d v')) ∧
      (∀ mode k t t' axis, Layout.Entry.classes? mode k (.spacing t axis v) =
        Layout.Entry.classes? mode k (.spacing t' axis v')) ∧
      ∀ detached k t t' axis, Position.Entry.classes detached k (.placement t (.offset axis v)) =
        Position.Entry.classes detached k (.placement t' (.offset axis v'))) ∧
    ∀ v v', Quantity.Alike Fragment.percentUnits v v' →
      Stroke.Entry.classes? .opacity (.opacity v) = Stroke.Entry.classes? .opacity (.opacity v') ∧
      Appearance.Entry.opacityClasses? (.opacity v) =
        Appearance.Entry.opacityClasses? (.opacity v') := by
  refine ⟨fun k => ⟨Stroke.tellsChanges_reading k ts, (Stroke.follows_run k ts).held⟩,
    ⟨Appearance.tellsChanges_reading ts, (Appearance.follows_run ts).held⟩,
    fun k => ⟨Position.tellsChanges_reading k ts, (Position.follows_run k ts).held⟩,
    fun k => ⟨Layout.tellsChanges_reading k r, (Layout.follows_run k r).held⟩,
    fun input => ⟨Stroke.read_eq input, Appearance.read_eq input, Position.read_eq input,
      Layout.read_eq input⟩, fun v v' alike => ?_, fun v v' alike => ⟨?_, ?_⟩⟩
  · exact ⟨Layout.Entry.classes?_size_of_alike alike, Layout.Entry.classes?_spacing_of_alike alike,
      Position.Entry.classes_offset_of_alike alike⟩
  · simp only [Stroke.Entry.classes?, Fragment.ofPercent?_of_alike alike]
  · simp only [Appearance.Entry.opacityClasses?, Appearance.Entry.opacity?, Option.bind_some,
      Fragment.ofPercent?_of_alike alike]

/-- What is refused is no change, nor is the same width spelled another way, but another width is. -/
theorem width_override_told_once :
    Quantity.Alike Fragment.pixelUnits "10" "10.0px" ∧
    Layout.Entry.classes? .auto (.size .width) (.size (.bare "w-10") .width "10") =
      Layout.Entry.classes? .auto (.size .width) (.size (.pair "width" "10.0px") .width "10.0px") ∧
    ((Layout.Resolution.reading ⟨.auto, [.bare "w-10", .pair "width" "foo",
        .pair "width" "10.0px", .bare "w-11"], none⟩).report.warnings.count
      "layout: width set more than once; the last value wins".toList) = 1 := by
  have short : Numeral.coefficient ⟨false, "10", []⟩ = 10 := by decide
  have long : Numeral.coefficient ⟨false, "10", "0"⟩ = 100 := by decide
  have same : Numeral.decimal ⟨false, "10", []⟩ = Numeral.decimal ⟨false, "10", "0"⟩ := by
    have places : "0".toList.length = 1 := rfl
    rw [Numeral.decimal, Numeral.decimal, short, long, places]
    norm_num
  have alike : Quantity.Alike Fragment.pixelUnits "10" "10.0px" := by
    refine ⟨⟨false, "10", []⟩, ⟨false, "10", "0"⟩, none, some .px, ?_, ?_, by decide, by decide,
      same, rfl⟩
    · exact ⟨⟨rfl, rfl, by decide⟩, false, [], by decide, by decide, by decide⟩
    · exact ⟨⟨rfl, rfl, by decide⟩, true, "px", by decide, by decide, by decide⟩
  have told := overrides_told_exactly [] ⟨.auto, [.bare "w-10", .pair "width" "foo",
    .pair "width" "10.0px", .bare "w-11"], none⟩
  have changed : changes (Layout.accepted .auto (.size .width) [.bare "w-10", .pair "width" "foo",
      .pair "width" "10.0px", .bare "w-11"]) = 1 := by decide +kernel
  refine ⟨alike, (told.2.2.2.2.2.1 _ _ alike).1 .auto (.size .width) _ _ .width, ?_⟩
  rw [← changed]
  exact (told.2.2.2.1 (.size .width)).1.count

end Element

end Inspector
