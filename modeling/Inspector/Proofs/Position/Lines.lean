import Inspector.Proofs.Draft.Lines
import Inspector.Proofs.Position.Family

/-!
# Problems of a position, on one line each

The errors and warnings of a position quote keys, values and whole tokens as they are written, those
inside the groups of rotations and constraints as well. A position on one line has none that breaks.

    t.IsLine → (Entry.ofToken t).IsLine                                         (isLine_ofToken)
    IsLine s → (read (some s)).report.InLines                                     (inLines_read)
-/

namespace Inspector.Position

open Text

def Constraint.IsLine : Constraint → Prop
  | .on _ value => Text.IsLine value
  | .unknown token => token.IsLine

def Placement.IsLine : Placement → Prop
  | .edge value => Text.IsLine value
  | .offset _ value => Text.IsLine value
  | .constrain items => ∀ c ∈ items, c.IsLine

/-- What the entry may have quoted stands on one line. -/
def Entry.IsLine : Entry → Prop
  | .flag => True
  | .placement token p => token.IsLine ∧ p.IsLine
  | .rotation items => ∀ i ∈ items, i.IsLine
  | .depth value => Text.IsLine value
  | .unknownKey key => Text.IsLine key
  | .unrecognized text => Text.IsLine text

/-! ## Entries -/

theorem Constraint.isLine_ofToken {t : Token} (h : t.IsLine) : (ofToken t).IsLine := by
  cases t with
  | bare text => exact h
  | pair key value =>
    unfold ofToken
    dsimp only
    split_ifs
    · exact h.2
    · exact h.2
    · exact h

/-- The leaves of a rotation on one line stand on one line each, however deep its groups are. -/
theorem isLine_rotationItems {value : Text} (h : IsLine value) :
    ∀ i ∈ rotationItems value, i.IsLine := by
  induction hn : value.length using Nat.strongRecOn generalizing value with
  | _ n ih =>
    intro i hi
    rw [rotationItems] at hi
    split at hi
    · exact List.mem_singleton.1 hi ▸ h
    · next inner hs =>
      obtain ⟨⟨t, ht⟩, -, hi⟩ := List.mem_flatMap.1 hi
      have line : t.IsLine := isLine_tokenize (Group.isLine_strip? h hs) ht
      dsimp only at hi
      split at hi
      · next nested hg =>
        have shorter : nested.length < n := hn ▸ Token.length_nested_lt hs ht hg
        exact ih _ shorter (Token.isLine_group? line hg) rfl i hi
      · exact List.mem_singleton.1 hi ▸ line

namespace Entry

theorem isLine_ofBare {text : Text} (h : Text.IsLine text) : (ofBare text).IsLine := by
  unfold ofBare
  split_ifs
  · exact True.intro
  · exact ⟨h, isLine_lower h⟩
  · exact List.forall_mem_singleton.2 h
  · exact h

theorem isLine_ofPair {token : Token} (ht : token.IsLine) {key value : Text}
    (hk : Text.IsLine key) (hv : Text.IsLine value) : (ofPair token key value).IsLine := by
  have item {t : Token} (h : t ∈ tokenize ((Group.strip? value).getD value)) : t.IsLine :=
    isLine_tokenize (Group.isLine_unwrapped hv) h
  -- One branch after the other; taken all at once, each condition is simplified in each branch.
  have branch {c : Prop} [Decidable c] {e e' : Entry} (h : e.IsLine) (h' : e'.IsLine) :
      (if c then e else e').IsLine :=
    iteInduction (fun _ => h) fun _ => h'
  unfold ofPair
  refine branch True.intro ?_
  refine branch (isLine_rotationItems hv) ?_
  refine branch ⟨ht, hv⟩ ?_
  refine branch ⟨ht, hv⟩ ?_
  refine branch ⟨ht, hv⟩ ?_
  refine branch ⟨ht, List.forall_mem_singleton.2 hv⟩ ?_
  refine branch ⟨ht, List.forall_mem_singleton.2 hv⟩ ?_
  refine branch ⟨ht, List.forall_mem_map.2 fun t h => Constraint.isLine_ofToken (item h)⟩ ?_
  exact branch hv hk

theorem isLine_ofToken {t : Token} (h : t.IsLine) : (ofToken t).IsLine := by
  cases t with
  | bare text => exact isLine_ofBare h
  | pair key value => exact isLine_ofPair h (isLine_lower h.1) h.2

end Entry

/-! ## Runs -/

/-- All errors and warnings of the position stand on one line each. -/
abbrev InLines (s : State) : Prop := s.draft.InLines Error.message Warning.message

namespace State

variable {s : State}

theorem inLines_readFlag (h : InLines s) {t : Token} (ht : t.IsLine) : InLines (s.readFlag t) := by
  cases t with
  | bare text =>
    simp only [readFlag]
    split <;> exact h
  | pair key value =>
    have invalid : IsLine (Error.invalidFlag key value).message :=
      isLine_quoted (isLine_quoted (by decide) ht.1 (by decide)) ht.2 (by decide)
    simp only [readFlag]
    split
    · split
      · exact h
      · exact Draft.InLines.error h invalid
    · exact h

theorem inLines_setTurn (h : InLines s) (t : Turn) : InLines (s.setTurn t) := by
  cases t with
  | upright | flipX | flipY => exact h.classes _
  | angle degrees =>
    simp only [setTurn]
    split
    · exact h.put _ _ (by decide)
    · exact h.classes _

theorem inLines_setRotationItem (h : InLines s) {i : Token} (hi : i.IsLine) :
    InLines (s.setRotationItem i) := by
  have refused : InLines (s.error (.invalidRotation i)) :=
    h.error (isLine_quoted (by decide) hi.written (by decide))
  unfold setRotationItem
  split
  · split
    · exact inLines_setTurn h _
    · exact refused
  · exact refused

theorem inLines_place (h : InLines s) (axis : Axis) (cs : List Text) :
    InLines (s.place axis cs) :=
  h.put _ _ (by cases axis <;> decide)

theorem inLines_setConstraint (h : InLines s) {c : Constraint} (hc : c.IsLine) :
    InLines (s.setConstraint c) := by
  cases c with
  | on axis value =>
    have before : IsLine ("invalid " ++ axis.name ++ " constraint '") := by
      cases axis <;> decide
    simp only [setConstraint]
    split
    · exact inLines_place h axis _
    · exact h.error (isLine_quoted before hc (by decide))
  | unknown item => exact h.warn (isLine_quoted (by decide) hc.written (by decide))

theorem inLines_setPlacement (h : InLines s) {p : Placement} (hp : p.IsLine) :
    InLines (s.setPlacement p) := by
  cases p with
  | edge value =>
    simp only [setPlacement]
    split
    · exact inLines_place h _ _
    · exact h.error (isLine_quoted (by decide) hp (by decide))
  | offset axis value =>
    have refused : IsLine (Error.invalidOffset axis value).message := by
      cases axis <;> exact isLine_quoted (by decide) hp (by decide)
    simp only [setPlacement]
    split
    · exact inLines_place h _ _
    · exact h.error refused
  | constrain items =>
    exact List.foldlRecOn (motive := InLines) items setConstraint h fun _ hs c hc =>
      inLines_setConstraint hs (hp c hc)

theorem inLines_apply (h : InLines s) {e : Entry} (he : e.IsLine) : InLines (s.apply e) := by
  cases e with
  | flag => exact h
  | placement token p =>
    simp only [apply]
    split
    · exact inLines_setPlacement h he.2
    · exact h.error (isLine_quoted (by decide) he.1.written (by decide))
  | rotation items =>
    exact List.foldlRecOn (motive := InLines) items setRotationItem
      (b := { s with rotationSeen := true }) h fun _ hs i hi => inLines_setRotationItem hs (he i hi)
  | depth value =>
    simp only [apply, setDepth]
    split
    · exact h.put _ _ (by decide)
    · exact h.error (isLine_quoted (by decide) he (by decide))
  | unknownKey key => exact h.warn (isLine_quoted (by decide) he (by decide))
  | unrecognized text => exact h.warn (isLine_quoted (by decide) he (by decide))

theorem inLines_finish (h : InLines s) : InLines s.finish := by
  have flag := h.ite s.flagSeen (h.error (e := .missingFlag) (by decide))
  have checked := flag.ite s.rotationSeen (flag.error (e := .missingRotation) (by decide))
  unfold InLines
  rw [draft_finish]
  unfold framed
  refine .ite _ (.ite _ (checked.classes _) (checked.classes _)) (.ite _ ?_ checked)
  exact Draft.InLines.warn (checked.classes _) (by decide)

end State

theorem inLines_run {ts : List Token} (h : ∀ t ∈ ts, t.IsLine) : InLines (run ts) := by
  have flags : InLines (flagged ts) :=
    List.foldlRecOn (motive := InLines) ts State.readFlag .empty fun _ hs t ht =>
      State.inLines_readFlag hs (h t ht)
  exact List.foldlRecOn (motive := InLines) ts State.step flags fun _ hs t ht =>
    State.inLines_apply hs (Entry.isLine_ofToken (h t ht))

/-- A position on one line has problems on one line each. -/
theorem inLines_read {input : Option Text} (h : ∀ s ∈ input, IsLine s) :
    (read input).report.InLines :=
  (State.inLines_finish (inLines_run (isLine_tokens h))).report .position

end Inspector.Position
