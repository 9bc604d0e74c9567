import Inspector.Proofs.Layout.Family

/-!
# Interleaved tokens of a layout

A token of a layout changes and looks at what is of its own family only; the classes of the
alignment, which depend on the flow, the gap and the baseline as well, and the display are resolved
at the end. So it is only within the families that the order of the tokens matters to the report.

    ActsWithin part (family t) (·.step mode t)                                     (acts_step)
    (∀ f, s.part f = s'.part f) → s.Alike s'                                  (alike_of_parts)
    SameFamilies family ts us → the readings of ts and us are alike      (reading_interleaved)
-/

namespace Inspector.Layout

open Text

namespace State

/-! ## Parts -/

/-- What a state holds and has seen of the family `f`. -/
def part (f : Family) (s : State) : State where
  draft := s.draft.part families f
  widthSeen := s.widthSeen && f = .dimensions
  heightSeen := s.heightSeen && f = .dimensions
  flow := if f = .flow then s.flow else none
  flowSeen := s.flowSeen && f = .flow
  alignment := if f = .alignment then s.alignment else none
  alignmentSeen := s.alignmentSeen && f = .alignment
  gapSeen := s.gapSeen && f = .gap
  gapBetween := s.gapBetween && f = .gap
  baseline := s.baseline && f = .settings

variable {g : Family}

/-- A change of the draft alone. -/
theorem acts_draft {c : Draft Concern Error Warning → Draft Concern Error Warning}
    (h : ActsWithin (Draft.part families) g c) :
    ActsWithin part g fun s => { s with draft := c s.draft } where
  here s := by simp only [part, h.here]
  elsewhere hf s := by simp only [part, h.elsewhere hf]

theorem acts_error {e : Error} (he : e.family = g) : ActsWithin part g (·.error e) :=
  acts_draft (Draft.acts_error he)

theorem acts_warn {w : Warning} (hw : w.family = g) : ActsWithin part g (·.warn w) :=
  acts_draft (Draft.acts_warn hw)

theorem acts_put {k : Concern} {again : Superseded} (hk : k.family = g) (hw : again.family = g)
    (c : Text) : ActsWithin part g (·.put k c again) :=
  acts_draft (Draft.acts_put hk hw [c])

/-! ## What has been seen -/

theorem acts_seeFlow : ActsWithin part .flow fun s => { s with flowSeen := true } where
  here _ := rfl
  elsewhere hf s := by simp [part, hf]

theorem acts_holdFlow (f : Flow) : ActsWithin part .flow fun s => { s with flow := some f } where
  here _ := rfl
  elsewhere hf s := by simp [part, hf]

theorem acts_seeAlignment : ActsWithin part .alignment fun s => { s with alignmentSeen := true } where
  here _ := rfl
  elsewhere hf s := by simp [part, hf]

theorem acts_holdAlignment (a : Alignment) :
    ActsWithin part .alignment fun s => { s with alignment := some a } where
  here _ := rfl
  elsewhere hf s := by simp [part, hf]

theorem acts_seeGap : ActsWithin part .gap fun s => { s with gapSeen := true } where
  here _ := rfl
  elsewhere hf s := by simp [part, hf]

theorem acts_holdGap (between : Bool) :
    ActsWithin part .gap fun s => { s with gapBetween := between } where
  here s := by simp [part]
  elsewhere hf s := by simp [part, hf]

theorem acts_holdBaseline (on : Bool) :
    ActsWithin part .settings fun s => { s with baseline := on } where
  here s := by simp [part]
  elsewhere hf s := by simp [part, hf]

theorem acts_see (d : Dimension) : ActsWithin part .dimensions (·.see d) where
  here s := by cases d <;> simp [part, see]
  elsewhere hf s := by cases d <;> simp [part, see, hf]

/-! ## Steps within a family -/

theorem acts_setSize (d : Dimension) (value : Text) :
    ActsWithin part .dimensions (·.setSize d value) := by
  unfold setSize
  split
  · exact (acts_see d).andThen (acts_put (by rfl) (by rfl) _)
  · exact (acts_see d).andThen (acts_error rfl)

theorem acts_setClip (on : Bool) : ActsWithin part .clip (·.setClip on) := by
  cases on with
  | true => exact acts_draft (Draft.acts_insert (by rfl) _)
  | false => exact acts_draft (Draft.acts_erase (by rfl))

theorem acts_setSpacing (axis : Spacing) (value : Text) :
    ActsWithin part .spacing (·.setSpacing axis value) := by
  unfold setSpacing
  split
  · exact acts_put (by rfl) (by rfl) _
  · exact acts_error rfl

theorem acts_setDirection (f : Flow) : ActsWithin part .flow (·.setDirection f) := by
  cases f with
  | row => exact .andThen (acts_put (by rfl) (by rfl) _) (acts_holdFlow .row)
  | column => exact .andThen (acts_put (by rfl) (by rfl) _) (acts_holdFlow .column)

theorem acts_setWrap : ActsWithin part .flow setWrap := by
  have row (s : State) : (s.part .flow).flow = some .row ↔ s.flow = some .row := by simp [part]
  exact .ite row (acts_draft (Draft.acts_insert (by rfl) _)) (acts_error rfl)

theorem acts_setFlow (value : Text) : ActsWithin part .flow (·.setFlow value) := by
  have discard : ActsWithin part .flow fun s =>
      { s with draft := s.draft.discard .wrap .wrapRemoved } :=
    acts_draft (Draft.acts_discard (by rfl) (by rfl))
  unfold setFlow
  dsimp only
  split
  · exact acts_seeFlow.andThen (discard.andThen (acts_setDirection .column))
  · split
    · exact acts_seeFlow.andThen (acts_setDirection .row)
    · split
      · exact acts_seeFlow.andThen acts_setWrap
      · exact acts_seeFlow.andThen (acts_error rfl)

theorem acts_setAlignment (value : Text) : ActsWithin part .alignment (·.setAlignment value) := by
  unfold setAlignment
  split
  · next a h =>
    have other (s : State) : (s.part .alignment).alignment.any (· != a) = true ↔
        s.alignment.any (· != a) = true := by
      simp [part]
    have warned : ActsWithin part .alignment fun s =>
        if s.alignment.any (· != a) = true then s.warn (.superseded .alignment) else s :=
      .ite other (acts_warn rfl) .nothing
    exact acts_seeAlignment.andThen (warned.andThen (acts_holdAlignment a))
  · exact acts_seeAlignment.andThen (acts_error rfl)

theorem acts_setGap (value : Text) : ActsWithin part .gap (·.setGap value) := by
  have erase : ActsWithin part .gap fun s => { s with draft := s.draft.erase .gap } :=
    acts_draft (Draft.acts_erase (by rfl))
  unfold setGap
  dsimp only
  split
  · exact acts_seeGap.andThen (erase.andThen (acts_holdGap true))
  · split
    · exact acts_seeGap.andThen (.andThen (acts_put (by rfl) (by rfl) _) (acts_holdGap false))
    · exact acts_seeGap.andThen (acts_error rfl)

theorem acts_replacePadding (kind : Padding) :
    ActsWithin part .padding (·.replacePadding kind) := by
  have replaced : ∀ k ∈ kind.replaced.map Concern.padding, families.ofConcern k = .padding := by
    intro k hk
    obtain ⟨kind', -, rfl⟩ := List.mem_map.1 hk
    rfl
  unfold replacePadding
  dsimp only
  split
  · exact acts_draft (Draft.acts_eraseAll replaced)
  · exact acts_draft (.foldl fun k _ => Draft.acts_discard (by rfl) (by rfl))

theorem acts_setPadding (i : Padding.Item) : ActsWithin part .padding (·.setPadding i) := by
  unfold setPadding
  split
  · split
    · exact (acts_replacePadding _).andThen (acts_put (by rfl) (by rfl) _)
    · exact acts_error rfl
  · exact acts_warn rfl

theorem acts_setSetting (i : Setting) : ActsWithin part .settings (·.setSetting i) := by
  unfold setSetting
  split
  · split
    · exact acts_holdBaseline _
    · exact acts_error rfl
  · exact acts_warn rfl
  · exact acts_warn rfl

theorem acts_applyAuto (a : AutoEntry) : ActsWithin part a.family (·.applyAuto a) := by
  cases a with
  | flow value => exact acts_setFlow value
  | align value => exact acts_setAlignment value
  | gap value => exact acts_setGap value
  | settings items => exact .foldl fun i _ => acts_setSetting i
  | padding items => exact .foldl fun i _ => acts_setPadding i

theorem acts_apply (mode : Mode) {e : Entry} (h : e.KeepsFamily) :
    ActsWithin part e.family (·.apply mode e) := by
  unfold apply
  cases e with
  | marker => exact .nothing
  | clip on => exact acts_setClip on
  | unclearClip value => exact acts_error rfl
  | size token d value =>
    dsimp only
    split
    · exact acts_error h
    · exact acts_setSize d value
  | spacing token axis value =>
    dsimp only
    split
    · exact acts_error rfl
    · exact acts_setSpacing axis value
  | auto token a =>
    dsimp only
    split
    · exact acts_applyAuto a
    · exact acts_error h
  | unread u => exact acts_warn rfl

theorem acts_step (mode : Mode) (t : Token) : ActsWithin part (family t) (·.step mode t) :=
  .foldl fun e he => by
    rw [← family_of_mem he]
    exact acts_apply mode (Entry.keepsFamily_of_mem he)

/-! ## States that hold the same -/

/-- Two states that hold the same in different orders and have seen the same. -/
def Alike (s s' : State) : Prop := ∃ d, s.draft.Alike d ∧ s' = { s with draft := d }

theorem alike_of_parts {s s' : State} (h : ∀ f, s.part f = s'.part f) : s.Alike s' := by
  have draft : s.draft.Alike s'.draft := Draft.alike_of_parts fun f => congrArg State.draft (h f)
  have dimensions := h .dimensions
  have flow := h .flow
  have alignment := h .alignment
  have gap := h .gap
  have settings := h .settings
  refine ⟨s'.draft, draft, ?_⟩
  cases s
  cases s'
  simp_all [part]

namespace Alike

variable {s s' : State}

theorem error (h : s.Alike s') (e : Error) : (s.error e).Alike (s'.error e) := by
  obtain ⟨d, hd, rfl⟩ := h
  exact ⟨_, hd.error e, rfl⟩

theorem warn (h : s.Alike s') (w : Warning) : (s.warn w).Alike (s'.warn w) := by
  obtain ⟨d, hd, rfl⟩ := h
  exact ⟨_, hd.warn w, rfl⟩

theorem resolveAlignment (h : s.Alike s') : s.resolveAlignment.Alike s'.resolveAlignment := by
  obtain ⟨d, hd, rfl⟩ := h
  have justify : ({ s with draft := d } : State).justifyClass? = s.justifyClass? := rfl
  have items : ({ s with draft := d } : State).itemsClass? = s.itemsClass? := rfl
  unfold State.resolveAlignment
  rw [justify, items]
  cases s.justifyClass? with
  | none =>
    cases s.itemsClass? with
    | none => exact ⟨_, hd, rfl⟩
    | some c => exact ⟨_, hd.insert .items c, rfl⟩
  | some c' =>
    cases s.itemsClass? with
    | none => exact ⟨_, hd.insert .justify c', rfl⟩
    | some c => exact ⟨_, (hd.insert .justify c').insert .items c, rfl⟩

/-- What does not look at the draft is the same. -/
theorem kept {β : Type} (h : s.Alike s') (o : State → β)
    (ho : ∀ (s : State) d, o { s with draft := d } = o s) : o s = o s' := by
  obtain ⟨d, -, rfl⟩ := h
  exact (ho s d).symm

/-- A choice that falls in the same way for both. -/
theorem ite {t t' : State} {b b' : Bool} (hb : b = b') (h : s.Alike s') (ht : t.Alike t') :
    (if b then s else t).Alike (if b' then s' else t') := by
  rw [hb]
  split
  · exact h
  · exact ht

theorem checkSize (h : s.Alike s') : s.checkSize.Alike s'.checkSize := by
  unfold State.checkSize
  rw [h.kept State.widthSeen fun _ _ => rfl, h.kept State.heightSeen fun _ _ => rfl]
  split
  · exact h.error _
  · exact h.error _
  · exact h.error _
  · exact h

theorem checkAuto (h : s.Alike s') : s.checkAuto.Alike s'.checkAuto := by
  have flow := Alike.ite (h.kept State.flowSeen fun _ _ => rfl) h (h.error .missingFlow)
  have alignment := Alike.ite (flow.kept State.alignmentSeen fun _ _ => rfl) flow
    (flow.warn .noAlignment)
  exact .ite (alignment.kept State.gapSeen fun _ _ => rfl) alignment (alignment.warn .noGap)

theorem setDisplay (h : s.Alike s') : s.setDisplay.Alike s'.setDisplay := by
  have flex : flexConcerns.any s.draft.contains = flexConcerns.any s'.draft.contains := by
    obtain ⟨d, hd, rfl⟩ := h
    exact congrArg (List.any flexConcerns) (funext hd.contains_eq)
  refine .ite flex ?_ h
  obtain ⟨d, hd, rfl⟩ := h
  exact ⟨_, hd.prepend .display _, rfl⟩

theorem finish (h : s.Alike s') (mode : Mode) : (s.finish mode).Alike (s'.finish mode) := by
  unfold State.finish
  split
  · exact h.resolveAlignment.checkSize.checkAuto.setDisplay
  · exact h.checkSize

end Alike

end State

/-! ## Readings -/

/-- Layouts of one mode with the same families of tokens have the same report, up to its order. -/
theorem reading_interleaved {ts us : List Token} (h : SameFamilies family ts us) (mode : Mode) :
    (Resolution.reading ⟨mode, ts, none⟩).report.Alike
      (Resolution.reading ⟨mode, us, none⟩).report := by
  have parts : ∀ f, (run ⟨mode, ts, none⟩).part f = (run ⟨mode, us, none⟩).part f :=
    part_foldl_eq (State.acts_step mode) h {}
  obtain ⟨d, hd, finished⟩ := (State.alike_of_parts parts).finish mode
  unfold Resolution.reading
  rw [finished]
  exact hd.report _ _ _

end Inspector.Layout
