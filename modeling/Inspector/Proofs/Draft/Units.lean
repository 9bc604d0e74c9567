import Inspector.Proofs.Draft
import Inspector.Proofs.Number.Units
import Inspector.Proofs.Observation
import Inspector.Token

/-!
# Foreign literals in a draft

A field that is asked to take a literal in a foreign unit refuses it: the error is all that comes of
it, whatever was read before. A bare literal in a unit that the property has no field for is passed
over with a warning. Neither is lost, so the report tells of all of them.

    RefusesForeign draft f asked? q → a ∈ l.filterMap asked? → a.IsForeign q →
      a.refusal ∈ (draft (l.foldl f s)).errors           (RefusesForeign.refusal_mem_foldl)
    the finished draft has the errors and the warnings → the report has the lines
                                                                          (Draft.tellsForeign)
-/

namespace Inspector

open Text

/-- A literal that a field is asked to take: how the field measures it, and the error with which it
is refused. -/
structure Asked (ε : Type) where
  gauge : Gauge
  literal : Text
  refusal : ε
  deriving DecidableEq, Repr

/-- The literal is of the quantity, in a unit that is not one of the field. -/
abbrev Asked.IsForeign {ε : Type} (a : Asked ε) (q : Quantity) : Prop :=
  a.gauge.IsForeign q a.literal

section

variable {σ α κ ε ω : Type}

/-- Whatever the state is, a step that is asked to take a foreign literal of the quantity finds the
error, and does nothing else to the draft. -/
def RefusesForeign (draft : σ → Draft κ ε ω) (f : σ → α → σ) (asked? : σ → α → Option (Asked ε))
    (q : Quantity) : Prop :=
  ∀ s e a, asked? s e = some a → a.IsForeign q → draft (f s e) = (draft s).error a.refusal

section

variable {draft : σ → Draft κ ε ω} {f : σ → α → σ} {q : Quantity} {a : Asked ε}

/-- The error about a foreign literal is there after the step that is asked to take it. -/
theorem RefusesForeign.refusal_mem {asked? : σ → α → Option (Asked ε)}
    (h : RefusesForeign draft f asked? q) {s : σ} {e : α} (asks : asked? s e = some a)
    (foreign : a.IsForeign q) : a.refusal ∈ (draft (f s e)).errors := by
  rw [h s e a asks foreign]
  exact List.mem_append_right _ (List.mem_singleton_self _)

/-- Where errors are never lost, a run has those about all the foreign literals on its way. -/
theorem RefusesForeign.refusal_mem_foldl {asked? : α → Option (Asked ε)}
    (h : RefusesForeign draft f (fun _ => asked?) q)
    (kept : ∀ s e, (draft s).errors ⊆ (draft (f s e)).errors) {l : List α}
    (ha : a ∈ l.filterMap asked?) (foreign : a.IsForeign q) (s : σ) :
    a.refusal ∈ (draft (l.foldl f s)).errors := by
  obtain ⟨e, he, asks⟩ := List.mem_filterMap.1 ha
  exact mem_foldl_of_kept (fun s => (draft s).errors) kept he
    (fun _ => h.refusal_mem asks foreign) s

end

/-- Whatever the state is, a bare literal of the quantity, in a unit that is foreign to the
property, comes to a warning and nothing else. -/
def PassesForeign (draft : σ → Draft κ ε ω) (step : σ → Token → σ) (g : Gauge)
    (unread : Text → ω) (q : Quantity) : Prop :=
  ∀ s v, g.IsForeign q v → draft (step s (.bare v)) = (draft s).warn (unread v)

/-- The report has a line for each foreign literal of the quantity: an error for one that a field is
asked to take, a warning for a bare one. -/
structure TellsForeign (p : Property) (report : Report) (asked : List (Asked ε))
    (message : ε → Text) (g : Gauge) (ts : List Token) (q : Quantity) : Prop where
  refused : ∀ a ∈ asked, a.IsForeign q → p.name ++ ": " ++ message a.refusal ∈ report.errors
  passed : ∀ v, .bare v ∈ ts → g.IsForeign q v →
    p.name ++ ": " ++ ("unrecognized token '" ++ v ++ "'") ∈ report.warnings

/-- Where nothing is given, there is nothing to tell. -/
theorem TellsForeign.nil {p : Property} {report : Report} {message : ε → Text} {g : Gauge}
    {q : Quantity} : TellsForeign p report [] message g [] q where
  refused _ ha := absurd ha List.not_mem_nil
  passed _ hv := absurd hv List.not_mem_nil

theorem Draft.tellsForeign {d : Draft κ ε ω} {p : Property} {asked : List (Asked ε)} {g : Gauge}
    {ts : List Token} {errorText : ε → Text} {warningText : ω → Text} {unread : Text → ω}
    {q : Quantity} (wording : ∀ v, warningText (unread v) = "unrecognized token '" ++ v ++ "'")
    (refused : ∀ a ∈ asked, a.IsForeign q → a.refusal ∈ d.errors)
    (passed : ∀ v, .bare v ∈ ts → g.IsForeign q v → unread v ∈ d.warnings) :
    TellsForeign p (d.report p errorText warningText) asked errorText g ts q where
  refused a ha foreign :=
    (d.mem_errors_report_iff p errorText warningText _).2 ⟨a.refusal, refused a ha foreign, rfl⟩
  passed v hv foreign :=
    (d.mem_warnings_report_iff p errorText warningText _).2
      ⟨unread v, passed v hv foreign, wording v⟩

end

end Inspector
