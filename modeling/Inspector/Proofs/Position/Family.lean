import Inspector.Proofs.Draft.Family
import Inspector.Proofs.Position.Flags

/-!
# The families of a position's tokens

A token of a position is a flag, or it is about the rotation, about the place on either axis or
about the depth, or it is not known. The flags are read first and settle whether the element is
detached; after that every token changes and reports what is of its own family, and looks at
nothing else but the flags.

    (Entry.ofToken t).family = family t                                       (family_ofToken)
    SameFamilies family ts us → (reading ts).Alike (reading us)          (reading_interleaved)
-/

namespace Inspector.Position

open Text

/-! ## Families -/

inductive Family where
  | flags
  | rotation
  | placement
  | depth
  | unknown
  deriving DecidableEq, Repr

def placementKeys : List Text :=
  ["align", "alignment", "x", "y", "constraint-x", "horizontal-constraint", "constraint-y",
    "vertical-constraint", "constraints"]

/-- The family of a key in lower case. -/
def keyFamily (key : Text) : Family :=
  if isFlagKey key then .flags
  else if key = "rotation" ∨ key = "rotate" then .rotation
  else if placementKeys.contains key then .placement
  else if key = "z" ∨ key = "z-index" ∨ key = "z-order" then .depth
  else .unknown

/-- The family of a token; a bare edge is a place, and a bare turn a rotation. -/
def family : Token → Family
  | .bare text =>
    if isFlagKey (lower text) then .flags
    else if isEdge (lower text) then .placement
    else if (Turn.ofText? text).isSome then .rotation
    else .unknown
  | .pair key _ => keyFamily (lower key)

def Entry.family : Entry → Family
  | .flag => .flags
  | .placement _ _ => .placement
  | .rotation _ => .rotation
  | .depth _ => .depth
  | .unknownKey _ | .unrecognized _ => .unknown

/-- The frame is set at the end only, by what the flags say. -/
def Concern.family : Concern → Family
  | .frame => .flags
  | .rotate | .flipX | .flipY => .rotation
  | .place _ => .placement
  | .depth => .depth

def Error.family : Error → Family
  | .invalidFlag _ _ | .missingFlag => .flags
  | .invalidRotation _ | .missingRotation => .rotation
  | .notDetached _ | .invalidEdge _ | .invalidOffset _ _ | .invalidConstraint _ _ => .placement
  | .invalidDepth _ => .depth

def Superseded.family : Superseded → Family
  | .rotation => .rotation
  | .place _ => .placement
  | .depth => .depth

def Warning.family : Warning → Family
  | .superseded k => k.family
  | .unknownConstraint _ => .placement
  | .unknownKey _ | .unrecognized _ => .unknown
  | .madeRelative => .depth

def families : Families Concern Error Warning Family where
  ofConcern := Concern.family
  ofError := Error.family
  ofWarning := Warning.family

/-! ## The entry of a token -/

theorem family_ofBare (text : Text) : (Entry.ofBare text).family = family (.bare text) := by
  unfold Entry.ofBare family
  dsimp only
  split_ifs <;> rfl

theorem family_ofPair (t : Token) (key value : Text) :
    (Entry.ofPair t key value).family = keyFamily key := by
  unfold Entry.ofPair
  by_cases flag : isFlagKey key
  · rw [if_pos flag, keyFamily, if_pos flag]
    rfl
  rw [if_neg flag]
  by_cases rotation : key = "rotation" ∨ key = "rotate"
  · rw [if_pos rotation, keyFamily, if_neg flag, if_pos rotation]
    rfl
  rw [if_neg rotation]
  by_cases align : key = "align" ∨ key = "alignment"
  · rw [if_pos align]
    rcases align with h | h <;> rw [h] <;> rfl
  rw [if_neg align]
  by_cases x : key = "x"
  · rw [if_pos x, x]
    rfl
  rw [if_neg x]
  by_cases y : key = "y"
  · rw [if_pos y, y]
    rfl
  rw [if_neg y]
  by_cases constraintX : key = "constraint-x" ∨ key = "horizontal-constraint"
  · rw [if_pos constraintX]
    rcases constraintX with h | h <;> rw [h] <;> rfl
  rw [if_neg constraintX]
  by_cases constraintY : key = "constraint-y" ∨ key = "vertical-constraint"
  · rw [if_pos constraintY]
    rcases constraintY with h | h <;> rw [h] <;> rfl
  rw [if_neg constraintY]
  by_cases constraints : key = "constraints"
  · rw [if_pos constraints, constraints]
    rfl
  rw [if_neg constraints]
  have placement : ¬ placementKeys.contains key := by
    obtain ⟨align, alignment⟩ := not_or.1 align
    obtain ⟨constraintX, horizontal⟩ := not_or.1 constraintX
    obtain ⟨constraintY, vertical⟩ := not_or.1 constraintY
    simp only [List.contains_iff_mem, placementKeys, List.mem_cons, List.not_mem_nil, or_false,
      not_or]
    exact ⟨align, alignment, x, y, constraintX, horizontal, constraintY, vertical, constraints⟩
  rw [keyFamily, if_neg flag, if_neg rotation, if_neg placement]
  by_cases depth : key = "z" ∨ key = "z-index" ∨ key = "z-order"
  · rw [if_pos depth, if_pos depth]
    rfl
  · rw [if_neg depth, if_neg depth]
    rfl

/-- The entry of a token is of the family of the token. -/
theorem family_ofToken (t : Token) : (Entry.ofToken t).family = family t := by
  cases t with
  | bare text => exact family_ofBare text
  | pair key value => exact family_ofPair _ (lower key) value

/-- The flags are the tokens of one family. -/
theorem isFlag_iff (t : Token) : isFlag t ↔ family t = .flags := by
  cases t with
  | bare text =>
    simp only [isFlag, family]
    split_ifs with flag <;> simp [flag]
  | pair key value =>
    simp only [isFlag, family, keyFamily]
    split_ifs with flag <;> simp [flag]

/-! ## Steps within a family -/

namespace State

/-- What a state holds and has seen of the family `f`; what the flags say is known to all. -/
def part (f : Family) (s : State) : State :=
  { s with
    draft := s.draft.part families f
    rotationSeen := s.rotationSeen && f = .rotation }

variable {g : Family}

/-- A change of the draft alone. -/
theorem acts_draft {c : Draft Concern Error Warning → Draft Concern Error Warning}
    (h : ActsWithin (Draft.part families) g c) :
    ActsWithin part g fun s => { s with draft := c s.draft } where
  here s := by simp only [part, h.here]
  elsewhere hf s := by simp only [part, h.elsewhere hf]

theorem acts_error {e : Error} (he : e.family = g) : ActsWithin part g (·.error e) :=
  acts_draft (Draft.acts_error he)

theorem acts_warn {w : Warning} (hw : w.family = g) : ActsWithin part g (·.warn w) :=
  acts_draft (Draft.acts_warn hw)

theorem acts_seeRotation : ActsWithin part .rotation fun s => { s with rotationSeen := true } where
  here _ := rfl
  elsewhere hf s := by simp [part, hf]

theorem acts_setTurn (t : Turn) : ActsWithin part .rotation (·.setTurn t) := by
  cases t with
  | upright => exact acts_draft (Draft.acts_erase (by rfl))
  | flipX => exact acts_draft (Draft.acts_insert (by rfl) _)
  | flipY => exact acts_draft (Draft.acts_insert (by rfl) _)
  | angle degrees =>
    unfold setTurn
    dsimp only
    split
    · exact acts_draft (Draft.acts_put (by rfl) (by rfl) _)
    · exact acts_draft (Draft.acts_erase (by rfl))

theorem acts_setRotationItem (i : Token) : ActsWithin part .rotation (·.setRotationItem i) := by
  unfold setRotationItem
  split
  · split
    · exact acts_setTurn _
    · exact acts_error rfl
  · exact acts_error rfl

theorem acts_place (axis : Axis) (cs : List Text) : ActsWithin part .placement (·.place axis cs) :=
  acts_draft (Draft.acts_put (by rfl) (by rfl) cs)

theorem acts_setConstraint (c : Constraint) : ActsWithin part .placement (·.setConstraint c) := by
  unfold setConstraint
  split
  · split
    · exact acts_place _ _
    · exact acts_error rfl
  · exact acts_warn rfl

theorem acts_setPlacement (p : Placement) : ActsWithin part .placement (·.setPlacement p) := by
  unfold setPlacement
  cases p with
  | edge value =>
    dsimp only
    split
    · exact acts_place _ _
    · exact acts_error rfl
  | offset axis value =>
    dsimp only
    split
    · exact acts_place _ _
    · exact acts_error rfl
  | constrain items => exact .foldl fun c _ => acts_setConstraint c

theorem acts_setDepth (value : Text) : ActsWithin part .depth (·.setDepth value) := by
  unfold setDepth
  split
  · exact acts_draft (Draft.acts_put (by rfl) (by rfl) _)
  · exact acts_error rfl

theorem acts_apply (e : Entry) : ActsWithin part e.family (·.apply e) := by
  cases e with
  | flag => exact .nothing
  | placement token p => exact .ite (fun _ => .rfl) (acts_setPlacement p) (acts_error rfl)
  | rotation items => exact acts_seeRotation.andThen (.foldl fun i _ => acts_setRotationItem i)
  | depth value => exact acts_setDepth value
  | unknownKey key => exact acts_warn rfl
  | unrecognized text => exact acts_warn rfl

theorem acts_step (t : Token) : ActsWithin part (family t) (·.step t) := by
  rw [← family_ofToken]
  exact acts_apply (Entry.ofToken t)

/-! ## The end -/

/-- The frame that a draft gets at the end. -/
def framed (detached : Bool) (d : Draft Concern Error Warning) : Draft Concern Error Warning :=
  if detached then
    let d := d.prepend .frame "fixed"
    if d.contains .depth then d else d.insert .depth "z-50"
  else if d.contains .depth then (d.prepend .frame "relative").warn .madeRelative
  else d

theorem draft_finish (s : State) : s.finish.draft =
    framed s.detached
      (let d := if s.flagSeen then s.draft else s.draft.error .missingFlag
       if s.rotationSeen then d else d.error .missingRotation) := by
  have frame (s : State) : s.setFrame.draft = framed s.detached s.draft := by
    unfold setFrame framed
    split
    · rfl
    · split <;> rfl
  unfold finish
  rw [frame]
  cases hf : s.flagSeen <;> cases hr : s.rotationSeen <;> simp [error, hf, hr]

theorem framed_alike {d d' : Draft Concern Error Warning} (h : d.Alike d') (detached : Bool) :
    (framed detached d).Alike (framed detached d') := by
  have fixed := h.prepend .frame "fixed"
  have relative := (h.prepend .frame "relative").warn .madeRelative
  exact .ite rfl (.ite (fixed.contains_eq .depth) fixed (fixed.insert .depth _))
    (.ite (h.contains_eq .depth) relative h)

theorem finish_alike {s s' : State} (detached : s.detached = s'.detached)
    (flag : s.flagSeen = s'.flagSeen) (rotation : s.rotationSeen = s'.rotationSeen)
    (h : s.draft.Alike s'.draft) : s.finish.draft.Alike s'.finish.draft := by
  have flagged := Draft.Alike.ite flag h (h.error .missingFlag)
  have checked := Draft.Alike.ite rotation flagged (flagged.error .missingRotation)
  rw [draft_finish, draft_finish, detached]
  exact framed_alike checked _

end State

/-! ## Readings -/

/-- Only the flags are heeded while the flags are read. -/
theorem flagged_eq {ts us : List Token} (h : SameFamilies family ts us) :
    flagged ts = flagged us := by
  have own (ts : List Token) :
      (ts.filter fun t => family t = .flags).foldl State.readFlag {} = flagged ts := by
    simp only [← isFlag_iff, Bool.decide_eq_true]
    exact foldl_filter_of_unheeded (fun s _ => State.readFlag_of_not_isFlag s) ts ({} : State)
  rw [← own ts, ← own us, h .flags]

/-- Positions with the same families of tokens have the same report, up to its order, and are both
fixed or neither. -/
theorem reading_interleaved {ts us : List Token} (h : SameFamilies family ts us) :
    (reading ts).report.Alike (reading us).report ∧
      (reading ts).isFixed = (reading us).isFixed := by
  have parts (f : Family) : (run ts).part f = (run us).part f := by
    show (ts.foldl State.step (flagged ts)).part f = (us.foldl State.step (flagged us)).part f
    rw [flagged_eq h]
    exact part_foldl_eq State.acts_step h (flagged us) f
  have detached : (run ts).detached = (run us).detached := by
    simpa only [State.part] using congrArg State.detached (parts .flags)
  have flag : (run ts).flagSeen = (run us).flagSeen := by
    simpa only [State.part] using congrArg State.flagSeen (parts .flags)
  have rotation : (run ts).rotationSeen = (run us).rotationSeen := by
    simpa [State.part] using congrArg State.rotationSeen (parts .rotation)
  have draft : (run ts).draft.Alike (run us).draft :=
    Draft.alike_of_parts fun f => congrArg State.draft (parts f)
  refine ⟨(State.finish_alike detached flag rotation draft).report _ _ _, ?_⟩
  show (run ts).finish.detached = (run us).finish.detached
  rw [State.detached_finish, State.detached_finish, detached]

end Inspector.Position
