import Inspector.Token

/-!
# Bundles

A bundle gives values to the parts of a box, its sides or its corners: by key (`t=1px`), as an
item (`t-1px`), or in the order of the parts. Groups inside a bundle are bundles of their own, with
their own order; a value behind the last part is surplus. Reading a bundle flattens it to its
entries, from left to right.

    .group nested ∈ slots P free ts → ∃ t ∈ ts, nested.length + 2 ≤ t.text.length   (length_of_group)
-/

namespace Inspector

open Text

/-- The parts of a box: their order, their names, and how a value given by key is unwrapped. -/
structure Parts (κ : Type) where
  order : List κ
  aliases : κ → List Text
  unwrapped : Text → Text := id

namespace Parts

variable {κ : Type}

/-- The part of a name, in any case and with blanks around it. -/
def ofName? (P : Parts κ) (name : Text) : Option κ :=
  P.order.find? fun k => (P.aliases k).contains (lower (trim name))

/-- The part and the value of an item such as `t-1px`. -/
def ofItem? (P : Parts κ) (item : Text) : Option (κ × Text) :=
  P.order.findSome? fun k => (P.aliases k).findSome? fun name =>
    ((afterWord? name item).bind (after? "-")).map fun value => (k, value)

end Parts

namespace Bundle

variable {κ : Type}

/-- What one value of a bundle comes to. -/
inductive Entry (κ : Type) where
  | value (part : κ) (text : Text)
  | unknown (key : Text)
  | surplus (text : Text)
  deriving DecidableEq, Repr

/-- One token of a bundle: an entry, or a group to be read as a bundle. -/
inductive Slot (κ : Type) where
  | entry (e : Entry κ)
  | group (nested : Text)
  deriving DecidableEq, Repr

/-! ## Algorithm -/

/-- The slots of the tokens of one bundle; `free` holds the parts not yet given by order. -/
def slots (P : Parts κ) : List κ → List Token → List (Slot κ)
  | _, [] => []
  | free, .pair key value :: ts =>
    (match P.ofName? key with
      | some k => .entry (.value k (P.unwrapped value))
      | none => .entry (.unknown key)) :: slots P free ts
  | free, .bare text :: ts =>
    match Group.strip? text, P.ofItem? text, free with
    | some nested, _, _ => .group nested :: slots P free ts
    | none, some (k, value), _ => .entry (.value k value) :: slots P free ts
    | none, none, k :: rest => .entry (.value k text) :: slots P rest ts
    | none, none, [] => .entry (.surplus text) :: slots P [] ts

theorem strip?_of_group {P : Parts κ} {free : List κ} {ts : List Token} {nested : Text}
    (h : .group nested ∈ slots P free ts) : ∃ t ∈ ts, Group.strip? t.text = some nested := by
  induction ts generalizing free with
  | nil => simp [slots] at h
  | cons t ts ih =>
    have later : ∀ free', .group nested ∈ slots P free' ts →
        ∃ t' ∈ t :: ts, Group.strip? t'.text = some nested := fun free' h' =>
      let ⟨t', ht', hs⟩ := ih h'
      ⟨t', List.mem_cons_of_mem _ ht', hs⟩
    cases t with
    | pair key value =>
      simp only [slots, List.mem_cons] at h
      rcases h with h | h
      · split at h <;> simp at h
      · exact later _ h
    | bare text =>
      simp only [slots] at h
      split at h
      · next hs =>
        rcases List.mem_cons.1 h with h | h
        · simp only [Slot.group.injEq] at h
          exact ⟨.bare text, by simp, by subst h; exact hs⟩
        · exact later _ h
      all_goals
        rcases List.mem_cons.1 h with h | h
        · simp at h
        · exact later _ h

theorem length_of_group {P : Parts κ} {free : List κ} {ts : List Token} {nested : Text}
    (h : .group nested ∈ slots P free ts) : ∃ t ∈ ts, nested.length + 2 ≤ t.text.length :=
  let ⟨t, ht, hs⟩ := strip?_of_group h
  ⟨t, ht, Group.length_strip? hs⟩

/-- The entries of the bundle with this text inside. -/
def entries (P : Parts κ) (inner : Text) : List (Entry κ) :=
  (slots P P.order (tokenize inner)).attach.flatMap fun ⟨s, hs⟩ =>
    match s, hs with
    | .entry e, _ => [e]
    | .group nested, _ => entries P nested
termination_by inner.length
decreasing_by
  rename_i hs
  obtain ⟨t, ht, hl⟩ := length_of_group hs
  have := length_text_of_mem_tokenize ht
  omega

end Bundle

end Inspector
