import Inspector.Proofs.Position.Run

/-!
# Where the flags of a position stand

The flags are read before anything else and nothing else is read with them, so a position depends
on the order of its flags among themselves and on the order of its other tokens among themselves,
but not on how the two are mixed. The last valid flag decides.

    isFlag t → s.step t = s                                                    (step_of_isFlag)
    ¬ isFlag t → s.readFlag t = s                                      (readFlag_of_not_isFlag)
    run ts = the other tokens of ts after the flags of ts                              (run_eq)
-/

namespace Inspector.Position

open Text

namespace State

variable (s : State) {t : Token}

theorem step_of_isFlag (h : isFlag t) : s.step t = s := by
  have flag : Entry.ofToken t = .flag := by
    cases t with
    | bare text => exact if_pos h
    | pair key value => exact if_pos h
  rw [step, flag]
  rfl

theorem readFlag_of_not_isFlag (h : isFlag t = false) : s.readFlag t = s := by
  cases t with
  | bare text => exact if_neg (Bool.eq_false_iff.1 h)
  | pair key value => exact if_neg (Bool.eq_false_iff.1 h)

theorem detached_readFlag (t : Token) :
    (s.readFlag t).detached = (flagValue? t).getD s.detached := by
  rw [readFlag_eq]

theorem detached_step (t : Token) : (s.step t).detached = s.detached :=
  congrArg (fun m => m.1) (s.marks_apply (Entry.ofToken t))

theorem detached_setFrame : s.setFrame.detached = s.detached := by
  unfold setFrame
  split
  · rfl
  · split <;> rfl

theorem detached_finish : s.finish.detached = s.detached := by
  unfold finish
  dsimp only
  rw [detached_setFrame]
  split <;> split <;> rfl

end State

/-- The two passes over the tokens share none of them. -/
theorem run_eq (ts : List Token) :
    run ts = (ts.filter (!isFlag ·)).foldl State.step
      ((ts.filter isFlag).foldl State.readFlag {}) := by
  have flags : (ts.filter isFlag).foldl State.readFlag {} = ts.foldl State.readFlag {} :=
    foldl_filter_of_unheeded (fun s _ => State.readFlag_of_not_isFlag s) ts {}
  rw [flags, foldl_filter_of_unheeded fun s t ht => State.step_of_isFlag s (by simpa using ht), run]

/-- The last valid flag decides whether the element is detached. -/
theorem detached_run (ts : List Token) :
    (run ts).detached = (ts.filterMap flagValue?).getLast?.getD false := by
  show (ts.foldl State.step (ts.foldl State.readFlag {})).detached = _
  rw [kept_foldl State.detached State.detached_step,
    latest_foldl State.detached State.detached_readFlag]

/-- The position that a list of tokens gives. -/
def reading (ts : List Token) : Reading :=
  ⟨(run ts).finish.draft.report .position Error.message Warning.message, (run ts).finish.detached⟩

theorem read_eq (input : Option Text) : read input = reading (tokens input) := rfl

/-- Two positions with the same flags in the same order and the same other tokens in the same order
are the same, and it is the last valid flag that fixes the element. -/
theorem reading_of_same_flags (ts us : List Token) (hflags : ts.filter isFlag = us.filter isFlag)
    (hothers : ts.filter (!isFlag ·) = us.filter (!isFlag ·)) :
    reading ts = reading us ∧
      (reading ts).isFixed = (ts.filterMap flagValue?).getLast?.getD false ∧
      ∀ input, tokens input = ts → read input = reading us := by
  have sameRun : run ts = run us := by rw [run_eq, hflags, hothers, ← run_eq]
  have same : reading ts = reading us := by rw [reading, sameRun, reading]
  refine ⟨same, ?_, fun input h => ?_⟩
  · show (run ts).finish.detached = _
    rw [State.detached_finish, detached_run]
  · rw [read_eq, h, same]

/-- A flag at the end counts as much as one at the head. -/
theorem late_flag_fixes :
    reading (tokenize "x=4,rotation=none,detached=true") =
        reading (tokenize "detached=true,x=4,rotation=none") ∧
      (reading (tokenize "x=4,rotation=none,detached=true")).isFixed = true ∧
      read (some "x=4,rotation=none,detached=true") =
        reading (tokenize "detached=true,x=4,rotation=none") := by
  have same := reading_of_same_flags (tokenize "x=4,rotation=none,detached=true")
    (tokenize "detached=true,x=4,rotation=none") (by decide) (by decide)
  exact ⟨same.1, same.2.1, same.2.2 _ rfl⟩

end Inspector.Position
