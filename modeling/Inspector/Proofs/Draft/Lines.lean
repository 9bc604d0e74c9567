import Inspector.Proofs.Draft
import Inspector.Proofs.Text.Line

/-!
# Problems on one line each

Every write to a draft keeps its errors and warnings on one line each, if the one it adds stands on
one line; and so they are reported.

    d.InLines f g → IsLine (f e) → (d.error e).InLines f g                       (InLines.error)
    d.InLines f g → (d.report p f g).InLines                                    (InLines.report)
-/

namespace Inspector

open Text

/-- All messages of the report stand on one line each. -/
structure Report.InLines (r : Report) : Prop where
  errors : ∀ m ∈ r.errors, IsLine m
  warnings : ∀ m ∈ r.warnings, IsLine m

theorem Report.inLines_empty : ({} : Report).InLines := ⟨nofun, nofun⟩

/-- A text quoted within a message. -/
theorem Text.isLine_quoted {before quoted behind : Text} (hb : IsLine before)
    (h : IsLine quoted) (hb' : IsLine behind) : IsLine (before ++ quoted ++ behind) :=
  isLine_append.2 ⟨isLine_append.2 ⟨hb, h⟩, hb'⟩

namespace Draft

variable {κ ε ω : Type} {errorText : ε → Text} {warningText : ω → Text} {d : Draft κ ε ω}

/-- In this wording, all errors and warnings stand on one line each. -/
structure InLines (errorText : ε → Text) (warningText : ω → Text) (d : Draft κ ε ω) : Prop where
  errors : ∀ e ∈ d.errors, IsLine (errorText e)
  warnings : ∀ w ∈ d.warnings, IsLine (warningText w)

namespace InLines

theorem empty : ({} : Draft κ ε ω).InLines errorText warningText := ⟨nofun, nofun⟩

theorem error (h : d.InLines errorText warningText) {e : ε} (he : IsLine (errorText e)) :
    (d.error e).InLines errorText warningText :=
  ⟨List.forall_mem_append.2 ⟨h.errors, List.forall_mem_singleton.2 he⟩, h.warnings⟩

theorem warn (h : d.InLines errorText warningText) {w : ω} (hw : IsLine (warningText w)) :
    (d.warn w).InLines errorText warningText :=
  ⟨h.errors, List.forall_mem_append.2 ⟨h.warnings, List.forall_mem_singleton.2 hw⟩⟩

/-- The classes do not matter. -/
theorem classes (h : d.InLines errorText warningText) (m : ClassMap κ) :
    { d with classes := m }.InLines errorText warningText :=
  ⟨h.errors, h.warnings⟩

theorem ite {d' : Draft κ ε ω} (b : Bool) (h : d.InLines errorText warningText)
    (h' : d'.InLines errorText warningText) :
    (if b then d else d').InLines errorText warningText := by
  split
  · exact h
  · exact h'

theorem report (h : d.InLines errorText warningText) (p : Property) :
    (d.report p errorText warningText).InLines := by
  have label : IsLine (p.name ++ ": ") := by cases p <;> decide
  constructor
  · intro m hm
    obtain ⟨e, he, rfl⟩ := List.mem_map.1 hm
    exact isLine_append.2 ⟨label, h.errors e he⟩
  · intro m hm
    obtain ⟨w, hw, rfl⟩ := List.mem_map.1 hm
    exact isLine_append.2 ⟨label, h.warnings w hw⟩

variable [DecidableEq κ]

theorem put (h : d.InLines errorText warningText) (k : κ) (cs : List Text) {again : ω}
    (hw : IsLine (warningText again)) : (d.put k cs again).InLines errorText warningText := by
  unfold Draft.put
  split
  · split
    · exact h.classes _
    · exact (h.classes _).warn hw
  · exact h.classes _

theorem discard (h : d.InLines errorText warningText) (k : κ) {w : ω}
    (hw : IsLine (warningText w)) : (d.discard k w).InLines errorText warningText := by
  unfold Draft.discard
  split
  · exact (h.classes _).warn hw
  · exact h

end InLines

end Draft

end Inspector
