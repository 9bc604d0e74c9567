import Inspector.Report

/-!
# Drafts that match

Two drafts match if they hold the same classes and as many errors and warnings, whatever these say.
Each write to both of them, with messages of its own, keeps them matching, and the reports of two
that match differ in the wording of their messages at most.

    d.Matches d' → (d.put k cs w).Matches (d'.put k cs w')                          (Matches.put)
    d.Matches d' → (d.report p et wt).Matches (d'.report p et wt)                (Matches.report)
-/

namespace Inspector

/-- The same classes, and as many errors and warnings. -/
structure Report.Matches (r r' : Report) : Prop where
  classes : r.classes = r'.classes
  errors : r.errors.length = r'.errors.length
  warnings : r.warnings.length = r'.warnings.length

theorem Report.Matches.refl (r : Report) : r.Matches r := ⟨rfl, rfl, rfl⟩

/-- A choice that falls in the same way for both of two runs. -/
theorem related_ite {σ : Type} {R : σ → σ → Prop} {s s' u u' : σ} {b b' : Bool} (hb : b = b')
    (hs : R s s') (hu : R u u') : R (if b then s else u) (if b' then s' else u') := by
  rw [hb]
  split
  · exact hs
  · exact hu

namespace Draft

variable {κ ε ω : Type}

/-- The same classes of each concern, and as many errors and warnings. -/
structure Matches (d d' : Draft κ ε ω) : Prop where
  classes : d.classes = d'.classes
  errors : d.errors.length = d'.errors.length
  warnings : d.warnings.length = d'.warnings.length

namespace Matches

variable {d d' : Draft κ ε ω}

theorem refl (d : Draft κ ε ω) : d.Matches d := ⟨rfl, rfl, rfl⟩

theorem error (h : d.Matches d') (e e' : ε) : (d.error e).Matches (d'.error e') := by
  refine { h with errors := ?_ }
  show (d.errors ++ [e]).length = (d'.errors ++ [e']).length
  rw [List.length_append, List.length_append, h.errors]
  rfl

theorem warn (h : d.Matches d') (w w' : ω) : (d.warn w).Matches (d'.warn w') := by
  refine { h with warnings := ?_ }
  show (d.warnings ++ [w]).length = (d'.warnings ++ [w']).length
  rw [List.length_append, List.length_append, h.warnings]
  rfl

/-- A change of the classes alone. -/
theorem edit (h : d.Matches d') (f : ClassMap κ → ClassMap κ) :
    Matches { d with classes := f d.classes } { d' with classes := f d'.classes } :=
  { h with classes := congrArg f h.classes }

theorem report (h : d.Matches d') (p : Property) (errorText : ε → Text) (warningText : ω → Text) :
    (d.report p errorText warningText).Matches (d'.report p errorText warningText) where
  classes := congrArg ClassMap.classes h.classes
  errors := by
    show (d.errors.map _).length = (d'.errors.map _).length
    rw [List.length_map, List.length_map, h.errors]
  warnings := by
    show (d.warnings.map _).length = (d'.warnings.map _).length
    rw [List.length_map, List.length_map, h.warnings]

variable [DecidableEq κ]

theorem contains_eq (h : d.Matches d') (k : κ) : d.contains k = d'.contains k := by
  rw [contains, h.classes, contains]

theorem insert (h : d.Matches d') (k : κ) (c : Text) : (d.insert k c).Matches (d'.insert k c) :=
  h.edit (·.insert k c)

theorem prepend (h : d.Matches d') (k : κ) (c : Text) : (d.prepend k c).Matches (d'.prepend k c) :=
  h.edit (·.prepend k c)

theorem erase (h : d.Matches d') (k : κ) : (d.erase k).Matches (d'.erase k) := h.edit (·.erase k)

theorem eraseAll (h : d.Matches d') (ks : List κ) : (d.eraseAll ks).Matches (d'.eraseAll ks) :=
  h.edit (·.eraseAll ks)

theorem put (h : d.Matches d') (k : κ) (cs : List Text) (w w' : ω) :
    (d.put k cs w).Matches (d'.put k cs w') := by
  have set := h.edit (·.set k cs)
  unfold Draft.put
  rw [h.classes] at set ⊢
  cases d'.classes.get? k with
  | none => exact set
  | some previous =>
    dsimp only
    split
    · exact set
    · exact set.warn w w'

theorem discard (h : d.Matches d') (k : κ) (w w' : ω) :
    (d.discard k w).Matches (d'.discard k w') := by
  unfold Draft.discard
  rw [h.classes]
  split
  · exact (h.erase k).warn w w'
  · exact h

end Matches

end Draft

end Inspector
