import Inspector.Proofs.Draft

/-!
# Reports that gain warnings

A draft is what it would be without its warnings, preceded by them. So what is noted at some point
of a run stands where it was noted, and if the run heeds no warnings, nothing else is different.

    ws.foldl warn d = d.unwarned.preceded (d.warnings ++ ws)                       (foldl_warn)
    ((d.preceded front).report p f g).Gains lines ((d.preceded (front ++ ws)).report p f g),
      where the lines are those of ws                                            (gains_report)
-/

namespace Inspector

open Text

/-- The same report, but for further warnings that stand together. -/
structure Report.Gains (lines : List Text) (r r' : Report) : Prop where
  classes : r'.classes = r.classes
  errors : r'.errors = r.errors
  warnings : ∃ front back, r.warnings = front ++ back ∧ r'.warnings = front ++ lines ++ back

namespace Draft

variable {κ ε ω : Type} (d : Draft κ ε ω)

def unwarned : Draft κ ε ω := { d with warnings := [] }

theorem preceded_unwarned : d.unwarned.preceded d.warnings = d := by
  simp [unwarned, preceded]

theorem foldl_warn (ws : List ω) : ws.foldl warn d = d.unwarned.preceded (d.warnings ++ ws) := by
  induction ws generalizing d with
  | nil => rw [List.foldl_nil, List.append_nil, preceded_unwarned]
  | cons w ws ih =>
    rw [List.foldl_cons, ih]
    simp [unwarned, warn]

theorem gains_report (p : Property) (errorText : ε → Text) (warningText : ω → Text)
    (front ws : List ω) :
    ((d.preceded front).report p errorText warningText).Gains
      (ws.map fun w => p.name ++ ": " ++ warningText w)
      ((d.preceded (front ++ ws)).report p errorText warningText) where
  classes := rfl
  errors := rfl
  warnings := by
    refine ⟨front.map fun w => p.name ++ ": " ++ warningText w,
      d.warnings.map fun w => p.name ++ ": " ++ warningText w, ?_, ?_⟩
    · simp [report, preceded]
    · simp [report, preceded]

end Draft

end Inspector
