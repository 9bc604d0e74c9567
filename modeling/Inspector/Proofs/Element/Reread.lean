import Inspector.Proofs.Fill.Opacity
import Inspector.Proofs.Layout.Reread
import Inspector.Proofs.Stroke.Family

/-!
# Classes read again

The class of a size or of a color may be given back to the property it came from, and comes out as it
is. It takes another way in than the value it was made of: a length comes back in brackets, a keyword
as another keyword, a color as a class that carries its lead.

    ofText? v "border" = some c →
      (Stroke.read (some (c.classFor "border"))).classes = [c.classFor "border"]
                                                                         (Stroke.read_classFor)
    emitted sizes and colors are read as themselves                         (emitted_classes_fixed)
-/

namespace Inspector

open Text Inspector.Group

/-! ## Colors -/

/-- A class of a color is one bare token. -/
theorem Color.tokenize_classFor {v lead : Text} (hlead : lead ∈ leads) {c : Color}
    (h : ofText? v lead = some c) : tokenize (c.classFor lead) = [.bare (c.classFor lead)] := by
  have solidLead : IsSolid lead := (by decide : ∀ l ∈ leads, IsSolid l) lead hlead
  have plainLead : ∀ l ∈ leads, ',' ∉ l ∧ '=' ∉ l := by decide
  obtain ⟨tail, own, -, chars⟩ := exists_tail_classFor h
  have solid := solid_classFor solidLead h
  have free {sep : Char} (hsep : isClassChar sep = false) (hdash : sep ≠ '-') (hl : sep ∉ lead) :
      sep ∉ c.classFor lead := by
    rw [own, List.mem_append, List.mem_cons, not_or, not_or]
    refine ⟨hl, hdash, fun hc => ?_⟩
    rw [List.all_eq_true.1 chars sep hc] at hsep
    cases hsep
  have item : IsItemValue (c.classFor lead) :=
    .of_not_mem (free (by decide) (by decide) (plainLead lead hlead).1)
      (free (by decide) (by decide) (plainLead lead hlead).2)
  exact item.tokenize_eq solid (by simp [own])

/-- The default opacity is put behind the color, unless the color is spelled like it. -/
theorem Fill.read_classFor {v : Text} {c : Color} (h : Color.ofText? v "bg" = some c) :
    (read (some (c.classFor "bg"))).classes =
      [c.classFor "bg", "bg-opacity-100"].eraseDups := by
  have tokens : tokens (some (c.classFor "bg")) = [.bare (c.classFor "bg")] :=
    Color.tokenize_classFor (by decide) h
  have color := Color.ofText?_classFor (by decide) h
  have entry : Entry.ofToken (.bare (c.classFor "bg")) = .color (c.classFor "bg") := by
    rw [Entry.ofToken, Entry.ofBare, color]
    rfl
  have set : run [.bare (c.classFor "bg")] =
      ⟨⟨⟨[(.color, [c.classFor "bg"])]⟩, [], []⟩, some ⟨.solid, false⟩, false, false⟩ := by
    rw [run, List.foldl_cons, List.foldl_nil, State.step, entry]
    simp only [State.apply, State.setColor, color]
    rfl
  rw [read_eq, tokens, reading_of_ne_nil (List.cons_ne_nil _ _), set]
  rfl

theorem Stroke.read_classFor {v : Text} {c : Color} (h : Color.ofText? v "border" = some c) :
    (read (some (c.classFor "border"))).classes = [c.classFor "border"] := by
  have tokens : tokens (some (c.classFor "border")) = [.bare (c.classFor "border")] :=
    Color.tokenize_classFor (by decide) h
  have color := Color.ofText?_classFor (by decide) h
  obtain ⟨tail, own, -, -⟩ := Color.exists_tail_classFor h
  have letter : 'b' ∈ c.classFor "border" := by
    rw [own]
    exact List.mem_cons_self
  have length : Fragment.pixels? (c.classFor "border") = none := by
    rw [Fragment.pixels?, Quantity.ofText?_of_isStray (by decide) letter]
    rfl
  have entry : Entry.ofToken (.bare (c.classFor "border")) = [.color (c.classFor "border")] := by
    rw [Entry.ofToken, length, color]
    rfl
  have set : run [.bare (c.classFor "border")] =
      ⟨⟨[(.color, [c.classFor "border"])]⟩, [], []⟩ := by
    rw [run, List.foldl_cons, List.foldl_nil, State.step, entry]
    show State.setColor {} (c.classFor "border") = _
    rw [State.setColor, color]
    rfl
  rw [read_eq, tokens, reading_of_ne_nil (List.cons_ne_nil _ _), set]
  rfl

/-! ## Sizes and colors -/

/-- Sizes and colors that were emitted are read as themselves: a size as a size and, behind the lead
of a dimension, as an item that sets what it was made of; the class of a color as a color; and the
classes of a layout, a fill or a stroke as texts of these properties. -/
theorem emitted_classes_fixed :
    (∀ v f, Fragment.ofSize? v = some f →
      Fragment.ofSize? f = some f ∧
      ∀ d : Layout.Dimension,
        Layout.Entry.ofDimensionItem (.bare (d.short ++ "-" ++ f)) =
          .size (.bare (d.short ++ "-" ++ f)) d f ∧
        ∀ (mode : Layout.Mode) (s : Layout.State), (d.isBound → mode = .auto) →
          s.step mode (.bare (d.short ++ "-" ++ f)) = s.setSize d v) ∧
    (∀ input c, ∀ d : Layout.Dimension, c ∈ (Layout.read input).report.classes →
      d.short ++ "-".toList <+: c →
      (Layout.read (some ("Auto, " ++ c))).report.classes = [c]) ∧
    (∀ v lead c, lead = "bg".toList ∨ lead = "border" → Color.ofText? v lead = some c →
      ∃ d, Color.ofText? (c.classFor lead) lead = some d ∧ d.classFor lead = c.classFor lead) ∧
    (∀ v c, Color.ofText? v "bg" = some c →
      (Fill.read (some (c.classFor "bg"))).classes =
        [c.classFor "bg", "bg-opacity-100"].eraseDups) ∧
    ∀ v c, Color.ofText? v "border" = some c →
      (Stroke.read (some (c.classFor "border"))).classes = [c.classFor "border"] := by
  refine ⟨fun v f h => ⟨Fragment.ofSize?_ofSize? h, fun d => ⟨?item, ?step⟩⟩, ?layout, ?color,
    fun v c => Fill.read_classFor, fun v c => Stroke.read_classFor⟩
  case item =>
    have item : Layout.Dimension.ofItem? (d.short ++ "-" ++ f) = some (d, f) :=
      Layout.Dimension.ofItem?_eq_some_iff.2 (afterWord?_append _ f)
    simp only [Layout.Entry.ofDimensionItem, item]
  case step =>
    intro mode s admits
    exact Layout.State.step_of_ofSize? h admits s
  case layout =>
    intro input c d held lead
    exact Layout.read_size_class held lead
  case color =>
    intro v lead c own h
    exact ⟨_, Color.ofText?_classFor (by simpa [Color.leads] using own) h, rfl⟩

/-- A width in pixels comes back in brackets, a hexadecimal color as a class. -/
theorem width_and_color_fixed :
    Fragment.ofSize? "12.50PX" = some "[12.5px]" ∧
    Fragment.ofSize? "[12.5px]" = some "[12.5px]" ∧
    Color.ofText? " #FF0 " "bg" = some (.hex "#ff0") ∧
    (Fill.read (some "bg-[#ff0]")).classes = ["bg-[#ff0]", "bg-opacity-100"] := by
  have size : Fragment.ofSize? "12.50PX" = some "[12.5px]" := by decide +kernel
  have color : Color.ofText? " #FF0 " "bg" = some (.hex "#ff0") := by decide
  obtain ⟨sizes, -, -, fills, -⟩ := emitted_classes_fixed
  exact ⟨size, (sizes _ _ size).1, color, fills _ _ color⟩

end Inspector
