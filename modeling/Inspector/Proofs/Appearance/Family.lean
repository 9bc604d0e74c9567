import Inspector.Appearance
import Inspector.Proofs.Draft.Family

/-!
# The families of an appearance's tokens

A token of an appearance is about its visibility, its opacity, its radii or the smoothing of its
corners, or it is not known. What it changes, sees and reports is of the family it belongs to: only
the order within each family matters to the report.

    e ∈ Entry.ofToken t → e.family = family t                                 (family_of_mem)
    SameFamilies family ts us → (reading ts).Alike (reading us)          (reading_interleaved)
-/

namespace Inspector.Appearance

open Text

/-! ## Families -/

inductive Family where
  | visibility
  | opacity
  | radius
  | smoothing
  | unknown
  deriving DecidableEq, Repr

/-- The family of a key in lower case. -/
def keyFamily (key : Text) : Family :=
  if key = "visible" ∨ key = "visibility" then .visibility
  else if key = "opacity" then .opacity
  else if key = "corner-smoothing" ∨ key = "smoothing" then .smoothing
  else if key = "radius" ∨ key = "corner-radius" ∨ key = "rounded" ∨
      (Entry.cornerOfKey? key).isSome then .radius
  else .unknown

/-- The family of a bare word in lower case. -/
def wordFamily (word : Text) : Family :=
  if word = "visible" ∨ word = "hidden" ∨ word = "invisible" then .visibility
  else if word = "corner-smoothing" ∨ word = "smoothing" then .smoothing
  else .unknown

/-- The family of a token. -/
def family : Token → Family
  | .bare text => wordFamily (lower text)
  | .pair key _ => keyFamily (lower key)

/-- An item of a bundle that is not read is advice about the radii. -/
def Unread.family : Unread → Family
  | .key _ | .token _ => .unknown
  | .corner _ | .surplus _ => .radius
  | .smoothing => .smoothing

def Entry.family : Entry → Family
  | .visible | .hidden | .unclear _ => .visibility
  | .opacity _ => .opacity
  | .uniform _ | .corner _ _ => .radius
  | .unread u => u.family

def Concern.family : Concern → Family
  | .visibility => .visibility
  | .opacity => .opacity
  | .radius | .corner _ => .radius

def Error.family : Error → Family
  | .invalidVisibility _ | .missingVisibility => .visibility
  | .invalidOpacity _ | .missingOpacity => .opacity
  | .invalidRadius _ | .invalidCornerRadius _ _ => .radius

def Superseded.family : Superseded → Family
  | .opacity => .opacity
  | .radius | .corner _ => .radius

/-- That an appearance was left out is said by no token. -/
def Warning.family : Warning → Family
  | .superseded k => k.family
  | .uniformReplaced _ => .radius
  | .unread u => u.family
  | .defaulted => .unknown

def families : Families Concern Error Warning Family where
  ofConcern := Concern.family
  ofError := Error.family
  ofWarning := Warning.family

/-! ## The entries of a token -/

theorem family_ofBundle (b : Bundle.Entry Corner) : (Entry.ofBundle b).family = .radius := by
  cases b <;> rfl

theorem family_ofVisibility (value : Text) : (Entry.ofVisibility value).family = .visibility := by
  unfold Entry.ofVisibility
  split <;> rfl

theorem family_ofBare (text : Text) : (Entry.ofBare text).family = wordFamily (lower text) := by
  unfold Entry.ofBare wordFamily
  by_cases visible : lower text = "visible"
  · simp only [visible, true_or, if_true]
    rfl
  · simp only [visible, false_or, if_false]
    split_ifs <;> rfl

theorem family_of_mem_ofPair {key value : Text} {e : Entry} (he : e ∈ Entry.ofPair key value) :
    e.family = keyFamily key := by
  have only {e' : Entry} (he' : e ∈ [e']) : e = e' := List.mem_singleton.1 he'
  unfold Entry.ofPair at he
  split_ifs at he with visibility opacity radius smoothing
  · rw [only he, family_ofVisibility, keyFamily, if_pos visibility]
  · rw [only he, opacity]
    rfl
  · have own : keyFamily key = .radius := by rcases radius with h | h | h <;> rw [h] <;> rfl
    rw [own]
    split at he
    · obtain ⟨b, -, rfl⟩ := List.mem_map.1 he
      exact family_ofBundle b
    · rw [only he]
      rfl
  · rw [only he]
    rcases smoothing with h | h <;> rw [h] <;> rfl
  · have own : keyFamily key =
        if (Entry.cornerOfKey? key).isSome then .radius else .unknown := by
      obtain ⟨noRadius, noCorner, noRounded⟩ : ¬ key = "radius" ∧ ¬ key = "corner-radius" ∧
          ¬ key = "rounded" := by simpa only [not_or] using radius
      simp only [keyFamily, if_neg visibility, if_neg opacity, if_neg smoothing, noRadius,
        noCorner, noRounded, false_or]
    rw [own]
    split at he
    · next k hk =>
      rw [only he, hk]
      rfl
    · next hk =>
      rw [only he, hk]
      rfl

/-- Every entry of a token is of the family of the token. -/
theorem family_of_mem {t : Token} {e : Entry} (he : e ∈ Entry.ofToken t) :
    e.family = family t := by
  cases t with
  | bare text => rw [List.mem_singleton.1 he, family_ofBare, family]
  | pair key value => exact family_of_mem_ofPair he

/-! ## Steps within a family -/

namespace State

/-- What a state holds and has seen of the family `f`. -/
def part (f : Family) (s : State) : State where
  draft := s.draft.part families f
  visibilitySeen := s.visibilitySeen && f = .visibility
  opacitySeen := s.opacitySeen && f = .opacity

variable {g : Family}

/-- A change of the draft alone. -/
theorem acts_draft {c : Draft Concern Error Warning → Draft Concern Error Warning}
    (h : ActsWithin (Draft.part families) g c) :
    ActsWithin part g fun s => { s with draft := c s.draft } where
  here s := by simp only [part, h.here]
  elsewhere hf s := by simp only [part, h.elsewhere hf]

theorem acts_seeVisibility :
    ActsWithin part .visibility fun s => { s with visibilitySeen := true } where
  here _ := rfl
  elsewhere hf s := by simp [part, hf]

theorem acts_seeOpacity : ActsWithin part .opacity fun s => { s with opacitySeen := true } where
  here _ := rfl
  elsewhere hf s := by simp [part, hf]

theorem acts_error {e : Error} (he : e.family = g) : ActsWithin part g (·.error e) :=
  acts_draft (Draft.acts_error he)

theorem acts_warn {w : Warning} (hw : w.family = g) : ActsWithin part g (·.warn w) :=
  acts_draft (Draft.acts_warn hw)

theorem acts_setOpacity (value : Text) : ActsWithin part .opacity (·.setOpacity value) := by
  unfold setOpacity
  split
  · exact acts_seeOpacity.andThen (acts_draft (Draft.acts_put (by rfl) (by rfl) _))
  · exact acts_seeOpacity.andThen (acts_error rfl)

theorem acts_setUniform (value : Text) : ActsWithin part .radius (·.setUniform value) := by
  have corners : ∀ k ∈ Corner.order.map Concern.corner, families.ofConcern k = .radius := by
    decide
  unfold setUniform
  split
  · exact acts_draft ((Draft.acts_eraseAll corners).andThen (Draft.acts_put (by rfl) (by rfl) _))
  · exact acts_error rfl

theorem acts_setCorner (k : Corner) (value : Text) :
    ActsWithin part .radius (·.setCorner k value) := by
  unfold setCorner
  split
  · exact acts_draft
      (.andThen (Draft.acts_discard (by rfl) (by rfl)) (Draft.acts_put (by rfl) (by rfl) _))
  · exact acts_error rfl

theorem acts_apply (e : Entry) : ActsWithin part e.family (·.apply e) := by
  cases e with
  | visible => exact acts_seeVisibility.andThen (acts_draft (Draft.acts_erase (by rfl)))
  | hidden => exact acts_seeVisibility.andThen (acts_draft (Draft.acts_insert (by rfl) _))
  | unclear value => exact acts_seeVisibility.andThen (acts_error rfl)
  | opacity value => exact acts_setOpacity value
  | uniform value => exact acts_setUniform value
  | corner k value => exact acts_setCorner k value
  | unread u => exact acts_warn rfl

theorem acts_step (t : Token) : ActsWithin part (family t) (·.step t) :=
  .foldl fun e he => by
    rw [← family_of_mem he]
    exact acts_apply e

/-! ## The end -/

theorem draft_finish (s : State) : s.finish.draft =
    (let d := if s.visibilitySeen then s.draft else s.draft.error .missingVisibility
     let d := if s.opacitySeen then d else d.error .missingOpacity
     if d.contains .opacity then d else d.insert .opacity "opacity-100") := by
  have errorUnless (s : State) (b : Bool) (e : Error) :
      (if b then s else s.error e).draft = if b then s.draft else s.draft.error e := by
    split <;> rfl
  have opacitySeen (b : Bool) (e : Error) :
      (if b then s else s.error e).opacitySeen = s.opacitySeen := by
    split <;> rfl
  have filled (s : State) :
      (if s.draft.contains .opacity then s
        else { s with draft := s.draft.insert .opacity "opacity-100" }).draft =
        if s.draft.contains .opacity then s.draft else s.draft.insert .opacity "opacity-100" := by
    split <;> rfl
  unfold finish
  dsimp only
  rw [filled, errorUnless, errorUnless, opacitySeen]

theorem finish_alike {s s' : State} (visibility : s.visibilitySeen = s'.visibilitySeen)
    (opacity : s.opacitySeen = s'.opacitySeen) (h : s.draft.Alike s'.draft) :
    s.finish.draft.Alike s'.finish.draft := by
  have shown := Draft.Alike.ite visibility h (h.error .missingVisibility)
  have checked := Draft.Alike.ite opacity shown (shown.error .missingOpacity)
  rw [draft_finish, draft_finish]
  exact .ite (checked.contains_eq .opacity) checked (checked.insert .opacity _)

end State

/-! ## Readings -/

/-- The report that a list of tokens gives. -/
def reading : List Token → Report
  | [] => report (({} : State).warn .defaulted).draft
  | ts => report (run ts).finish.draft

theorem read_eq (input : Option Text) : read input = reading (tokens input) := by
  unfold read reading
  cases tokens input <;> rfl

theorem reading_of_ne_nil {ts : List Token} (written : ts ≠ []) :
    reading ts = report (run ts).finish.draft := by
  cases ts with
  | nil => exact absurd rfl written
  | cons t ts => rfl

/-- Appearances with the same families of tokens have the same report, up to its order. -/
theorem reading_interleaved {ts us : List Token} (h : SameFamilies family ts us) :
    (reading ts).Alike (reading us) := by
  have parts : ∀ f, (run ts).part f = (run us).part f := part_foldl_eq State.acts_step h {}
  have visibility : (run ts).visibilitySeen = (run us).visibilitySeen := by
    simpa [State.part] using congrArg State.visibilitySeen (parts .visibility)
  have opacity : (run ts).opacitySeen = (run us).opacitySeen := by
    simpa [State.part] using congrArg State.opacitySeen (parts .opacity)
  have draft : (run ts).draft.Alike (run us).draft :=
    Draft.alike_of_parts fun f => congrArg State.draft (parts f)
  have finished := State.finish_alike visibility opacity draft
  have report := finished.report .appearance Error.message Warning.message
  cases ts with
  | nil =>
    rw [← h.perm.nil_eq]
    exact .refl _
  | cons t ts =>
    cases us with
    | nil => exact absurd h.perm.eq_nil (List.cons_ne_nil t ts)
    | cons u us => exact report

end Inspector.Appearance
