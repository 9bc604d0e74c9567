import Inspector.Element
import Inspector.Proofs.Appearance.Vocabulary
import Inspector.Proofs.Fill.Vocabulary
import Inspector.Proofs.Layout.Vocabulary
import Inspector.Proofs.Position.Vocabulary
import Inspector.Proofs.Stroke.Vocabulary

/-!
# The union of the properties

The classes of two properties never coincide, except for the full width and the full height, which
both a layout and a position may have. So the union of the five reports drops nothing but these two
from the position.

    c ∈ (p.read s).classes → c ∈ (q.read t).classes → p ≠ q → c is a full size      (mem_two_reads)
    e.inspect.classes = L ++ (P without the full sizes of L) ++ A ++ F ++ S       (classes_inspect)
-/

namespace Inspector

open Text

namespace Property

/-- The report of one property string. -/
def read : Property → Option Text → Report
  | .layout, s => (Layout.read s).report
  | .position, s => (Position.read s).report
  | .appearance, s => Appearance.read s
  | .fill, s => Fill.read s
  | .stroke, s => Stroke.read s

/-- How the classes of a property begin. -/
def leads : Property → List Text
  | .layout => Layout.leads
  | .position => Position.leads
  | .appearance => Appearance.leads
  | .fill => Fill.leads
  | .stroke => Stroke.leads

theorem beginsWith_of_mem_read {p : Property} {s : Option Text} {c : Text}
    (hc : c ∈ (p.read s).classes) :
    BeginsWith p.leads c ∨ p = .position ∧ c ∈ Position.fullSizes := by
  cases p with
  | layout => exact .inl (Layout.beginsWith_of_mem_read hc)
  | position => exact (Position.beginsWith_of_mem_read hc).imp_right fun h => ⟨rfl, h⟩
  | appearance => exact .inl (Appearance.beginsWith_of_mem_read hc)
  | fill => exact .inl (Fill.beginsWith_of_mem_read hc)
  | stroke => exact .inl (Stroke.beginsWith_of_mem_read hc)

theorem mem_all (p : Property) : p ∈ all := by
  cases p <;> decide

theorem leads_apart {p q : Property} (h : p ≠ q) : apart p.leads q.leads := by
  have each : ∀ p ∈ all, ∀ q ∈ all, p ≠ q → apart p.leads q.leads := by decide
  exact each p p.mem_all q q.mem_all h

/-- Of the other properties only a layout can have a full size. -/
theorem eq_layout_of_fullSize {p : Property} {c : Text} (hc : c ∈ Position.fullSizes)
    (h : BeginsWith p.leads c) : p = .layout := by
  have none : ∀ c ∈ Position.fullSizes, ¬ BeginsWith Position.leads c ∧
      ¬ BeginsWith Appearance.leads c ∧ ¬ BeginsWith Fill.leads c ∧
      ¬ BeginsWith Stroke.leads c := by decide
  obtain ⟨hp, ha, hf, hs⟩ := none c hc
  cases p with
  | layout => rfl
  | position => exact absurd h hp
  | appearance => exact absurd h ha
  | fill => exact absurd h hf
  | stroke => exact absurd h hs

/-- A class of two properties is a full size, and the properties are layout and position. -/
theorem mem_two_reads {p q : Property} (hpq : p ≠ q) {s t : Option Text} {c : Text}
    (hp : c ∈ (p.read s).classes) (hq : c ∈ (q.read t).classes) :
    c ∈ Position.fullSizes ∧
      (p = .layout ∧ q = .position ∨ p = .position ∧ q = .layout) := by
  rcases beginsWith_of_mem_read hp with hp | ⟨rfl, hc⟩ <;>
    rcases beginsWith_of_mem_read hq with hq | ⟨rfl, hc'⟩
  · exact absurd hq (not_beginsWith_both (leads_apart hpq) hp)
  · exact ⟨hc', .inl ⟨eq_layout_of_fullSize hc' hp, rfl⟩⟩
  · exact ⟨hc, .inr ⟨rfl, eq_layout_of_fullSize hc hq⟩⟩
  · exact absurd rfl hpq

theorem nodup_classes_read (p : Property) (s : Option Text) : (p.read s).classes.Nodup := by
  cases p with
  | layout => exact ClassMap.nodup_classes _
  | position => exact ClassMap.nodup_classes _
  | appearance =>
    simp only [read, Appearance.read]
    split <;> exact ClassMap.nodup_classes _
  | fill =>
    simp only [read, Fill.read]
    split
    · exact List.nodup_nil
    · exact ClassMap.nodup_classes _
  | stroke =>
    simp only [read, Stroke.read]
    split
    · exact List.nodup_nil
    · exact ClassMap.nodup_classes _

/-- Properties other than layout and position share no class. -/
theorem disjoint_reads {p q : Property} (hpq : p ≠ q)
    (h : ¬ (p = .layout ∧ q = .position)) (h' : ¬ (p = .position ∧ q = .layout))
    (s t : Option Text) : (p.read s).classes.Disjoint (q.read t).classes := by
  intro c hp hq
  rcases (mem_two_reads hpq hp hq).2 with hl | hl
  · exact h hl
  · exact h' hl

end Property

namespace Element

theorem reports_eq (e : Element) :
    e.reports = Property.all.map fun p : Property => p.read (e.get p) := rfl

theorem mem_classes_inspect_iff (e : Element) (c : Text) :
    c ∈ e.inspect.classes ↔ ∃ p : Property, c ∈ (p.read (e.get p)).classes := by
  show c ∈ (e.reports.flatMap (·.classes)).eraseDups ↔ _
  rw [List.mem_eraseDups, reports_eq, List.flatMap_map, List.mem_flatMap]
  exact ⟨fun ⟨p, _, hc⟩ => ⟨p, hc⟩, fun ⟨p, hc⟩ => ⟨p, p.mem_all, hc⟩⟩

/-- The classes of the properties behind the position, in order. -/
def paintClasses (e : Element) : List Text :=
  (Property.appearance.read e.appearance).classes ++
    ((Property.fill.read e.fill).classes ++ (Property.stroke.read e.stroke).classes)

theorem nodup_paintClasses (e : Element) : e.paintClasses.Nodup := by
  have behindFill : ((Property.fill.read e.fill).classes ++
      (Property.stroke.read e.stroke).classes).Nodup :=
    (Property.nodup_classes_read _ _).append (Property.nodup_classes_read _ _)
      (Property.disjoint_reads (by decide) (by decide) (by decide) _ _)
  refine (Property.nodup_classes_read _ _).append behindFill
    (List.disjoint_append_right.2 ⟨?_, ?_⟩)
  · exact Property.disjoint_reads (by decide) (by decide) (by decide) _ _
  · exact Property.disjoint_reads (by decide) (by decide) (by decide) _ _

/-- What paints an element shares no class with what lays it out. -/
theorem disjoint_paintClasses (e : Element) {p : Property} (hp : p = .layout ∨ p = .position)
    (s : Option Text) : (p.read s).classes.Disjoint e.paintClasses := by
  refine List.disjoint_append_right.2 ⟨?_, List.disjoint_append_right.2 ⟨?_, ?_⟩⟩ <;>
    rcases hp with rfl | rfl <;>
    exact Property.disjoint_reads (by decide) (by decide) (by decide) _ _

theorem classes_inspect (e : Element) :
    e.inspect.classes =
      (Property.layout.read e.layout).classes ++
        (((Property.position.read e.position).classes.filter fun c =>
          !(Property.layout.read e.layout).classes.contains c) ++ e.paintClasses) := by
  have joined : e.reports.flatMap (·.classes) =
      (Property.layout.read e.layout).classes ++
        ((Property.position.read e.position).classes ++ e.paintClasses) := by
    simp [reports, Property.read, paintClasses]
  have behind : ((Property.position.read e.position).classes ++ e.paintClasses).Nodup :=
    (Property.nodup_classes_read _ _).append e.nodup_paintClasses
      (e.disjoint_paintClasses (.inr rfl) _)
  have kept : (e.paintClasses.filter fun c =>
      !(Property.layout.read e.layout).classes.contains c) = e.paintClasses := by
    rw [List.filter_eq_self]
    intro c hc
    have : c ∉ (Property.layout.read e.layout).classes :=
      fun h => e.disjoint_paintClasses (.inl rfl) _ h hc
    simpa using this
  rw [inspect, joined, eraseDups_append_of_nodup (Property.nodup_classes_read _ _) behind,
    List.filter_append, kept]

/-- The classes of an element are those of its layout, its position, its appearance, its fill and
its stroke, each once: the union drops nothing but a full width and a full height of the position,
since two properties have no other class in common, whatever they are read from. -/
theorem union_drops_only_full_sizes (e : Element) :
    e.inspect.classes =
        (Layout.read e.layout).report.classes ++
        ((Position.read e.position).report.classes.filter fun c =>
          ¬ (c ∈ (Layout.read e.layout).report.classes ∧ (c = "w-full" ∨ c = "h-full"))) ++
        (Appearance.read e.appearance).classes ++ (Fill.read e.fill).classes ++
        (Stroke.read e.stroke).classes ∧
      e.inspect.classes.Nodup ∧
      ∀ (p q : Property) (s t : Option Text) (c : Text), p ≠ q →
        c ∈ (p.read s).classes → c ∈ (q.read t).classes →
          (c = "w-full" ∨ c = "h-full") ∧
            (p = .layout ∧ q = .position ∨ p = .position ∧ q = .layout) := by
  have full : ∀ c : Text, c ∈ Position.fullSizes → c = "w-full" ∨ c = "h-full" := by
    intro c hc
    simpa [Position.fullSizes] using hc
  refine ⟨?_, nodup_eraseDups _, fun p q s t c hpq hp hq => ?_⟩
  · have dropped : ((Property.position.read e.position).classes.filter fun c =>
        !(Property.layout.read e.layout).classes.contains c) =
        (Position.read e.position).report.classes.filter fun c =>
          ¬ (c ∈ (Layout.read e.layout).report.classes ∧ (c = "w-full" ∨ c = "h-full")) := by
      refine List.filter_congr fun c hc => ?_
      by_cases hl : c ∈ (Layout.read e.layout).report.classes
      · have hfull :=
          full c (Property.mem_two_reads (p := .layout) (q := .position) (by decide) hl hc).1
        have hcontains : (Property.layout.read e.layout).classes.contains c = true :=
          List.contains_iff_mem.2 hl
        rw [hcontains, decide_eq_false (not_not.2 ⟨hl, hfull⟩)]
        rfl
      · simp [Property.read, hl]
    rw [classes_inspect, dropped]
    simp [Property.read, paintClasses]
  · obtain ⟨hc, hpq'⟩ := Property.mem_two_reads hpq hp hq
    exact ⟨full c hc, hpq'⟩

/-- The full width of a scaled element is dropped next to that of its layout. -/
theorem full_width_kept_once :
    let e : Element :=
      { layout := some "mode=standard,w=full,h=full"
        position := some "detached,rotation=none,constraint-x=scale" }
    "w-full".toList ∈ (Property.layout.read e.layout).classes ∧
      "w-full".toList ∈ (Property.position.read e.position).classes ∧
      e.inspect.classes =
        ["w-full".toList, "h-full".toList, "fixed".toList, "z-50".toList] := by
  intro e
  exact ⟨by decide +kernel, by decide +kernel,
    e.union_drops_only_full_sizes.1.trans (by decide +kernel)⟩

end Element

end Inspector
