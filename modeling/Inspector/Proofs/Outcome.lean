import Inspector.Proofs.Draft
import Inspector.Proofs.Observation

/-!
# What one step does to a state

A step refuses what it is given, with one error and nothing else; or it cannot read it, and one
warning says so; or it takes it for good: taken once more, it finds nothing to report.

    Outcome v isUnread f s → v.AllOrNothing s (f s)                       (Outcome.allOrNothing)
    Outcome v isUnread f s → v.Accepts isUnread s (f s) → v.Silent (f s) (f (f s))
                                                                                 (Outcome.silent)
-/

namespace Inspector

/-- How the state of a reader is looked at: by its draft, and by what it says beside the draft,
which leaves out what has merely been seen. -/
structure View (σ κ ε ω τ : Type) where
  draft : σ → Draft κ ε ω
  meaning : σ → τ

namespace View

variable {σ κ ε ω τ : Type} (v : View σ κ ε ω τ)

/-- No error is new in `s'`, or one error is all that is new. -/
def AllOrNothing (s s' : σ) : Prop :=
  (v.draft s').errors = (v.draft s).errors ∨
    ∃ e, v.draft s' = (v.draft s).error e ∧ v.meaning s' = v.meaning s

/-- If a warning of the kind `p` is new in `s'`, it is all that is new. -/
def NotedAlone (p : ω → Bool) (warn : σ → ω → σ) (s s' : σ) : Prop :=
  (v.draft s').noted p ≠ (v.draft s).noted p → ∃ w, p w ∧ s' = warn s w

/-- No error is new in `s'`, and no warning that something could not be read. -/
def Accepts (isUnread : ω → Bool) (s s' : σ) : Prop :=
  (v.draft s').errors = (v.draft s).errors ∧
    (v.draft s').noted isUnread = (v.draft s).noted isUnread

/-- Nothing at all is reported on the way from `s` to `s'`. -/
def Silent (s s' : σ) : Prop :=
  (v.draft s').errors = (v.draft s).errors ∧ (v.draft s').warnings = (v.draft s).warnings

variable {v}

/-- Of the items one after another, one that has a warning of the kind `p` is all there is. -/
theorem notedAlone_foldl {α : Type} {p : ω → Bool} {warn : σ → ω → σ} {g : σ → α → σ}
    {unknowns : α → List ω} {l : List α} {s : σ}
    (noted : ∀ s a, (v.draft (g s a)).noted p = (v.draft s).noted p ++ unknowns a)
    (single : ∀ a ∈ l, unknowns a ≠ [] → l = [a])
    (warned : ∀ a, unknowns a ≠ [] → ∃ w, p w ∧ g s a = warn s w) :
    v.NotedAlone p warn s (l.foldl g s) := by
  intro changed
  obtain ⟨a, ha, hu⟩ := exists_of_log_ne (fun s => (v.draft s).noted p) noted changed
  rw [single a ha hu]
  exact warned a hu

end View

variable {σ κ ε ω τ : Type} {v : View σ κ ε ω τ} {isUnread : ω → Bool} {f : σ → σ} {s : σ}

/-- What the step `f` does to `s`. -/
inductive Outcome (v : View σ κ ε ω τ) (isUnread : ω → Bool) (f : σ → σ) (s : σ) : Prop
  | refused (e : ε) (draft : v.draft (f s) = (v.draft s).error e)
      (meaning : v.meaning (f s) = v.meaning s)
  | unread (w : ω) (kind : isUnread w) (draft : v.draft (f s) = (v.draft s).warn w)
  | taken (errors : (v.draft (f s)).errors = (v.draft s).errors) (again : v.Silent (f s) (f (f s)))

namespace Outcome

/-- A step that is done for good is taken if it reports no error. -/
theorem settled (errors : (v.draft (f s)).errors = (v.draft s).errors) (again : f (f s) = f s) :
    Outcome v isUnread f s :=
  .taken errors (by rw [again]; exact ⟨rfl, rfl⟩)

theorem refused_of_eq {e : ε} (s' : σ) (h : f s = s') (draft : v.draft s' = (v.draft s).error e)
    (meaning : v.meaning s' = v.meaning s) : Outcome v isUnread f s :=
  .refused e (by rw [h, draft]) (by rw [h, meaning])

/-- A step that changes nothing is taken. -/
theorem unchanged (h : f s = s) : Outcome v isUnread f s :=
  settled (by rw [h]) (by rw [h, h])

/-- A step that goes on as `f` does from a state that looks the same. -/
theorem congr {g : σ → σ} {s₀ : σ} (h : Outcome v isUnread f s₀)
    (draft : v.draft s₀ = v.draft s) (meaning : v.meaning s₀ = v.meaning s)
    (first : g s = f s₀) (second : g (f s₀) = f (f s₀)) : Outcome v isUnread g s := by
  have both : g (g s) = f (f s₀) := by rw [first, second]
  cases h with
  | refused e hd hm => exact .refused e (by rw [first, hd, draft]) (by rw [first, hm, meaning])
  | unread w kind hd => exact .unread w kind (by rw [first, hd, draft])
  | taken errors again =>
    exact .taken (by rw [first, errors, draft]) (by rw [both, first]; exact again)

/-- One item at most comes to one outcome. -/
theorem foldl {α : Type} {g : σ → α → σ} {l : List α} (hl : l.length ≤ 1)
    (h : ∀ a ∈ l, Outcome v isUnread (g · a) s) : Outcome v isUnread (fun s => l.foldl g s) s := by
  match l, hl with
  | [], _ => exact .unchanged rfl
  | [a], _ => exact h a (List.mem_singleton_self a)

theorem allOrNothing (h : Outcome v isUnread f s) : v.AllOrNothing s (f s) := by
  cases h with
  | refused e draft meaning => exact .inr ⟨e, draft, meaning⟩
  | unread w _ draft => exact .inl (by rw [draft]; rfl)
  | taken errors _ => exact .inl errors

theorem silent (h : Outcome v isUnread f s) (accepted : v.Accepts isUnread s (f s)) :
    v.Silent (f s) (f (f s)) := by
  obtain ⟨errors, noted⟩ := accepted
  cases h with
  | refused e draft _ =>
    rw [draft, Draft.errors_error] at errors
    simp at errors
  | unread w kind draft =>
    rw [draft, Draft.noted_warn_of_pos _ kind] at noted
    simp at noted
  | taken _ again => exact again

end Outcome

end Inspector
