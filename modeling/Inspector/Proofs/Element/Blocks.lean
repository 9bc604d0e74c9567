import Inspector.Proofs.Element.Union

/-!
# The problems of each property

Every message begins with the name of its property, and no message begins with two names, whatever
text of the properties it quotes. So the messages of an element lie in five blocks, a block is what
its own property says, and a change of one property reaches no other block.

    m ∈ (p.read s).errors → p.label <+: m                                     (labelled_read)
    e.inspect.errors.filter p.label.isPrefixOf = (p.read (e.get p)).errors    (errors_labelled)
    e and e' differ in F alone → their messages labelled otherwise are the same
                                                                 (properties_do_not_interfere)
-/

namespace Inspector

open Text

namespace Property

/-- How the messages of a property begin. -/
def label (p : Property) : Text := p.name ++ ": "

theorem labels_apart {p q : Property} (h : p ≠ q) : apart [p.label] [q.label] := by
  have each : ∀ p ∈ all, ∀ q ∈ all, p ≠ q → apart [p.label] [q.label] := by decide
  exact each p p.mem_all q q.mem_all h

/-- No message has two labels. -/
theorem eq_of_labels {p q : Property} {m : Text} (hp : p.label <+: m) (hq : q.label <+: m) :
    p = q := by
  by_contra hpq
  exact not_beginsWith_both (labels_apart hpq) (.of_mem List.mem_cons_self hp)
    (.of_mem List.mem_cons_self hq)

/-- Of five blocks of messages, each under its label, those under one label are one block. -/
theorem filter_blocks {messages : Property → List Text}
    (labelled : ∀ p, ∀ m ∈ messages p, label p <+: m) (q : Property) :
    (all.flatMap messages).filter q.label.isPrefixOf = messages q := by
  have each (p : Property) :
      (messages p).filter q.label.isPrefixOf = if p = q then messages p else [] := by
    split
    · next h =>
      subst h
      exact List.filter_eq_self.2 fun m hm => List.isPrefixOf_iff_prefix.2 (labelled p m hm)
    · next h =>
      rw [List.filter_eq_nil_iff]
      intro m hm hq
      exact h (eq_of_labels (labelled p m hm) (List.isPrefixOf_iff_prefix.1 hq))
  rw [List.filter_flatMap, funext each]
  cases q <;> simp [all]

end Property

/-- Every message of the report bears the label of the property. -/
structure Report.Labelled (p : Property) (r : Report) : Prop where
  errors : ∀ m ∈ r.errors, p.label <+: m
  warnings : ∀ m ∈ r.warnings, p.label <+: m

theorem Report.labelled_empty (p : Property) : ({} : Report).Labelled p := ⟨nofun, nofun⟩

theorem Draft.labelled_report {κ ε ω : Type} (d : Draft κ ε ω) (p : Property)
    (errorText : ε → Text) (warningText : ω → Text) :
    (d.report p errorText warningText).Labelled p := by
  constructor
  · intro m hm
    obtain ⟨e, -, rfl⟩ := List.mem_map.1 hm
    exact List.prefix_append _ _
  · intro m hm
    obtain ⟨w, -, rfl⟩ := List.mem_map.1 hm
    exact List.prefix_append _ _

theorem Property.labelled_read (p : Property) (s : Option Text) : (p.read s).Labelled p := by
  cases p with
  | layout => exact Draft.labelled_report _ _ _ _
  | position => exact Draft.labelled_report _ _ _ _
  | appearance =>
    simp only [read, Appearance.read]
    split <;> exact Draft.labelled_report _ _ _ _
  | fill =>
    simp only [read, Fill.read]
    split
    · exact Report.labelled_empty _
    · exact Draft.labelled_report _ _ _ _
  | stroke =>
    simp only [read, Stroke.read]
    split
    · exact Report.labelled_empty _
    · exact Draft.labelled_report _ _ _ _

namespace Element

variable (e : Element)

theorem errors_inspect :
    e.inspect.errors = Property.all.flatMap fun p => (p.read (e.get p)).errors := by
  show e.reports.flatMap (·.errors) = _
  rw [reports_eq, List.flatMap_map]

theorem warnings_inspect :
    e.inspect.warnings = Property.all.flatMap fun p => (p.read (e.get p)).warnings := by
  show e.reports.flatMap (·.warnings) = _
  rw [reports_eq, List.flatMap_map]

theorem errors_labelled (p : Property) :
    e.inspect.errors.filter p.label.isPrefixOf = (p.read (e.get p)).errors := by
  rw [errors_inspect]
  exact Property.filter_blocks (fun p => (p.labelled_read (e.get p)).errors) p

theorem warnings_labelled (p : Property) :
    e.inspect.warnings.filter p.label.isPrefixOf = (p.read (e.get p)).warnings := by
  rw [warnings_inspect]
  exact Property.filter_blocks (fun p => (p.labelled_read (e.get p)).warnings) p

theorem existsUnique_label {m : Text} (hm : m ∈ e.inspect.errors ++ e.inspect.warnings) :
    ∃! p : Property, p.label <+: m := by
  have some_ : ∃ p : Property, p.label <+: m := by
    rw [errors_inspect, warnings_inspect, List.mem_append, List.mem_flatMap, List.mem_flatMap] at hm
    rcases hm with ⟨p, -, hm⟩ | ⟨p, -, hm⟩
    · exact ⟨p, (p.labelled_read _).errors m hm⟩
    · exact ⟨p, (p.labelled_read _).warnings m hm⟩
  obtain ⟨p, hp⟩ := some_
  exact ⟨p, hp, fun q hq => Property.eq_of_labels hq hp⟩

/-- An element with another value of one property has the same errors and warnings under the labels
of the others, is fixed as before unless the property is the position, and keeps the classes of the
others. For every message bears the label of exactly one property, and the messages under one label
are a block of their own, in the order of the properties. -/
theorem properties_do_not_interfere :
    (∀ (e e' : Element) (F : Property), (∀ p, p ≠ F → e.get p = e'.get p) →
      (∀ G, G ≠ F →
        e.inspect.errors.filter G.label.isPrefixOf =
            e'.inspect.errors.filter G.label.isPrefixOf ∧
          e.inspect.warnings.filter G.label.isPrefixOf =
            e'.inspect.warnings.filter G.label.isPrefixOf ∧
          ∀ c ∈ (G.read (e.get G)).classes, c ∈ e.inspect.classes ∧ c ∈ e'.inspect.classes) ∧
      (F ≠ .position → e.inspect.isFixed = e'.inspect.isFixed)) ∧
    ∀ e : Element,
      (∀ m ∈ e.inspect.errors ++ e.inspect.warnings, ∃! p : Property, p.label <+: m) ∧
      e.inspect.errors =
          Property.all.flatMap (fun p => e.inspect.errors.filter p.label.isPrefixOf) ∧
        e.inspect.warnings =
          Property.all.flatMap (fun p => e.inspect.warnings.filter p.label.isPrefixOf) := by
  constructor
  · intro e e' F same
    refine ⟨fun G hG => ⟨?_, ?_, fun c hc => ⟨?_, ?_⟩⟩, fun hF => ?_⟩
    · rw [errors_labelled, errors_labelled, same G hG]
    · rw [warnings_labelled, warnings_labelled, same G hG]
    · exact (e.mem_classes_inspect_iff c).2 ⟨G, hc⟩
    · exact (e'.mem_classes_inspect_iff c).2 ⟨G, same G hG ▸ hc⟩
    · have position : e.position = e'.position := same .position (Ne.symm hF)
      show (Position.read e.position).isFixed = (Position.read e'.position).isFixed
      rw [position]
  · intro e
    refine ⟨fun m hm => e.existsUnique_label hm, ?_, ?_⟩
    · rw [funext e.errors_labelled]
      exact e.errors_inspect
    · rw [funext e.warnings_labelled]
      exact e.warnings_inspect

/-- A layout whose tokens look like messages of the fill leaves those of the fill alone. -/
theorem fill_unmoved_by_layout :
    let e : Element :=
      { layout := some "Standard\x7bw-1, h-1, fill: missing fill type\x7d", fill := some "hue=3" }
    let e' : Element := { fill := some "hue=3" }
    e.inspect.errors.filter Property.fill.label.isPrefixOf =
        e'.inspect.errors.filter Property.fill.label.isPrefixOf ∧
      e.inspect.warnings.filter Property.fill.label.isPrefixOf =
        e'.inspect.warnings.filter Property.fill.label.isPrefixOf := by
  intro e e'
  have same : ∀ p : Property, p ≠ .layout → e.get p = e'.get p := by
    intro p hp
    cases p with
    | layout => exact absurd rfl hp
    | _ => rfl
  obtain ⟨errors, warnings, -⟩ :=
    (properties_do_not_interfere.1 e e' .layout same).1 .fill (by decide)
  exact ⟨errors, warnings⟩

end Element

end Inspector
