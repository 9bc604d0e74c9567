import Inspector.Proofs.Draft.Family
import Inspector.Stroke

/-!
# The families of a stroke's tokens

A token of a stroke is about its color, its opacity, its style, its position or its weights, or it
is not known. What it changes and reports is of the family it belongs to, and so is all it looks
at: only the order within each family matters to the report.

    e ∈ Entry.ofToken t → e.family = family t                                 (family_of_mem)
    SameFamilies family ts us → (reading ts).Alike (reading us)          (reading_interleaved)
-/

namespace Inspector.Stroke

open Text

/-! ## Families -/

inductive Family where
  | color
  | opacity
  | style
  | position
  | weight
  | unknown
  deriving DecidableEq, Repr

/-- The family of a key in lower case. -/
def keyFamily (key : Text) : Family :=
  if key = "color" then .color
  else if key = "opacity" then .opacity
  else if key = "style" then .style
  else if key = "position" ∨ key = "align" then .position
  else if key = "weight" ∨ key = "width" ∨ (Entry.sideOfKey? key).isSome then .weight
  else .unknown

/-- The family of a token: that of its key; bare pixels are a weight, and a bare color a color. -/
def family : Token → Family
  | .bare text =>
    if (Fragment.pixels? text).isSome then .weight
    else if (Color.ofText? text "border").isSome then .color
    else .unknown
  | .pair key _ => keyFamily (lower key)

/-- An item of a bundle that is not read is advice about the weights. -/
def Unread.family : Unread → Family
  | .key _ | .token _ => .unknown
  | .side _ | .surplus _ => .weight

def Entry.family : Entry → Family
  | .color _ => .color
  | .opacity _ => .opacity
  | .position _ => .position
  | .style _ => .style
  | .uniform _ | .side _ _ => .weight
  | .unread u => u.family

def Concern.family : Concern → Family
  | .color => .color
  | .opacity => .opacity
  | .style => .style
  | .weight | .side _ => .weight

def Error.family : Error → Family
  | .invalidColor _ | .missingColor => .color
  | .invalidOpacity _ => .opacity
  | .unsupportedPosition _ => .position
  | .invalidStyle _ => .style
  | .invalidWeight _ | .invalidSideWeight _ _ | .missingWeight => .weight

def Warning.family : Warning → Family
  | .superseded k => k.family
  | .uniformReplaced _ => .weight
  | .unread u => u.family

def families : Families Concern Error Warning Family where
  ofConcern := Concern.family
  ofError := Error.family
  ofWarning := Warning.family

/-! ## The entries of a token -/

theorem family_ofBundle (b : Bundle.Entry Side) : (Entry.ofBundle b).family = .weight := by
  cases b <;> rfl

theorem family_of_mem_ofPair {key value : Text} {e : Entry} (he : e ∈ Entry.ofPair key value) :
    e.family = keyFamily key := by
  have only {e' : Entry} (he' : e ∈ [e']) : e = e' := List.mem_singleton.1 he'
  unfold Entry.ofPair at he
  split_ifs at he with color opacity position weight style
  · rw [only he, color]
    rfl
  · rw [only he, opacity]
    rfl
  · rw [only he]
    rcases position with h | h <;> rw [h] <;> rfl
  · have own : keyFamily key = .weight := by rcases weight with h | h <;> rw [h] <;> rfl
    rw [own]
    split at he
    · obtain ⟨b, -, rfl⟩ := List.mem_map.1 he
      exact family_ofBundle b
    · rw [only he]
      rfl
  · rw [only he, style]
    rfl
  · have own : keyFamily key =
        if (Entry.sideOfKey? key).isSome then .weight else .unknown := by
      obtain ⟨noWeight, noWidth⟩ := not_or.1 weight
      simp only [keyFamily, if_neg color, if_neg opacity, if_neg style, if_neg position, noWeight,
        noWidth, false_or]
    rw [own]
    split at he
    · next s hs =>
      rw [only he, hs]
      rfl
    · next hs =>
      rw [only he, hs]
      rfl

/-- Every entry of a token is of the family of the token. -/
theorem family_of_mem {t : Token} {e : Entry} (he : e ∈ Entry.ofToken t) :
    e.family = family t := by
  have only {e' : Entry} (he' : e ∈ [e']) : e = e' := List.mem_singleton.1 he'
  cases t with
  | bare text =>
    simp only [Entry.ofToken, family] at he ⊢
    split_ifs at he ⊢ <;> rw [only he] <;> rfl
  | pair key value => exact family_of_mem_ofPair he

/-! ## Steps within a family -/

namespace State

theorem acts_setColor (value : Text) :
    ActsWithin (Draft.part families) .color fun s => setColor s value := by
  unfold setColor
  split
  · exact Draft.acts_put (by rfl) (by rfl) _
  · exact Draft.acts_error rfl

theorem acts_setOpacity (value : Text) :
    ActsWithin (Draft.part families) .opacity fun s => setOpacity s value := by
  unfold setOpacity
  split
  · exact Draft.acts_put (by rfl) (by rfl) _
  · exact Draft.acts_error rfl

theorem acts_checkPosition (value : Text) :
    ActsWithin (Draft.part families) .position fun s => checkPosition s value := by
  unfold checkPosition
  split
  · exact .nothing
  · exact Draft.acts_error rfl

theorem acts_setStyle (value : Text) :
    ActsWithin (Draft.part families) .style fun s => setStyle s value := by
  unfold setStyle
  split
  · exact Draft.acts_put (by rfl) (by rfl) _
  · exact Draft.acts_error rfl

theorem acts_setUniform (value : Text) :
    ActsWithin (Draft.part families) .weight fun s => setUniform s value := by
  have sides : ∀ k ∈ Side.order.map Concern.side, families.ofConcern k = .weight := by decide
  unfold setUniform
  split
  · exact (Draft.acts_eraseAll sides).andThen (Draft.acts_put (by rfl) (by rfl) _)
  · exact Draft.acts_error rfl

theorem acts_setSide (side : Side) (value : Text) :
    ActsWithin (Draft.part families) .weight fun s => setSide s side value := by
  unfold setSide
  split
  · exact .andThen (Draft.acts_discard (by rfl) (by rfl)) (Draft.acts_put (by rfl) (by rfl) _)
  · exact Draft.acts_error rfl

theorem acts_apply (e : Entry) : ActsWithin (Draft.part families) e.family fun s => apply s e := by
  cases e with
  | color value => exact acts_setColor value
  | opacity value => exact acts_setOpacity value
  | position value => exact acts_checkPosition value
  | style value => exact acts_setStyle value
  | uniform value => exact acts_setUniform value
  | side side value => exact acts_setSide side value
  | unread u => exact Draft.acts_warn rfl

theorem acts_step (t : Token) : ActsWithin (Draft.part families) (family t) fun s => step s t :=
  .foldl fun e he => by
    rw [← family_of_mem he]
    exact acts_apply e

/-! ## The end -/

theorem isWeighted_eq {s s' : State} (h : Draft.Alike s s') : isWeighted s = isWeighted s' := by
  unfold isWeighted
  simp only [h.contains_eq]

theorem finish_alike {s s' : State} (h : Draft.Alike s s') : Draft.Alike (finish s) (finish s') := by
  have colored := Draft.Alike.ite (h.contains_eq .color) h (h.error .missingColor)
  exact .ite (isWeighted_eq colored) colored (colored.error .missingWeight)

end State

/-! ## Readings -/

/-- The report that a list of tokens gives. -/
def reading : List Token → Report
  | [] => {}
  | ts => (run ts).finish.report .stroke Error.message Warning.message

theorem read_eq (input : Option Text) : read input = reading (tokens input) := by
  unfold read reading
  cases tokens input <;> rfl

theorem reading_of_ne_nil {ts : List Token} (written : ts ≠ []) :
    reading ts = (run ts).finish.report .stroke Error.message Warning.message := by
  cases ts with
  | nil => exact absurd rfl written
  | cons t ts => rfl

/-- Strokes with the same families of tokens have the same report, up to its order. -/
theorem reading_interleaved {ts us : List Token} (h : SameFamilies family ts us) :
    (reading ts).Alike (reading us) := by
  have parts := part_foldl_eq State.acts_step h {}
  have finished := State.finish_alike (Draft.alike_of_parts parts)
  have report := finished.report .stroke Error.message Warning.message
  cases ts with
  | nil =>
    rw [← h.perm.nil_eq]
    exact .refl _
  | cons t ts =>
    cases us with
    | nil => exact absurd h.perm.eq_nil (List.cons_ne_nil t ts)
    | cons u us => exact report

end Inspector.Stroke
