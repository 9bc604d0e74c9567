import Inspector.Bundle
import Inspector.Proofs.Group
import Inspector.Proofs.Text.Solid

/-!
# Texts on one line

A text without a line feed is cut, trimmed, unwrapped and joined into texts without one, so that the
tokens of a property on one line stand on one line each, and so do the items of their groups.

    IsLine (s ++ t) ↔ IsLine s ∧ IsLine t                                        (isLine_append)
    IsLine s → t ∈ tokenize s → t.IsLine                                       (isLine_tokenize)
    IsLine inner → e ∈ Bundle.entries P inner → e.IsLine                        (isLine_entries)
-/

namespace Inspector

namespace Text

/-- There is no line feed in the text. -/
def IsLine (t : Text) : Prop := '\n' ∉ t

instance (t : Text) : Decidable (IsLine t) := inferInstanceAs (Decidable ('\n' ∉ t))

@[simp] theorem isLine_append {s t : Text} : IsLine (s ++ t) ↔ IsLine s ∧ IsLine t := by
  simp [IsLine]

theorem IsLine.subset {s t : Text} (h : IsLine t) (hst : s ⊆ t) : IsLine s := fun hs => h (hst hs)

theorem isLine_trim {t : Text} (h : IsLine t) : IsLine (trim t) := by
  obtain ⟨l, r, ht, -, -⟩ := exists_blanks t
  rw [ht, isLine_append, isLine_append] at h
  exact h.1.2

theorem isLine_lower {t : Text} (h : IsLine t) : IsLine (lower t) := by
  intro hl
  obtain ⟨c, hc, hcl⟩ := List.mem_map.1 hl
  rcases toLower_cases c with same | ⟨-, -, moved⟩
  · rw [same] at hcl
    exact h (hcl ▸ hc)
  · rw [hcl, show ('\n' : Char).toNat = 10 from rfl] at moved
    omega

theorem IsSolid.isLine {t : Text} (h : IsSolid t) : IsLine t :=
  fun hn => absurd (h '\n' hn) (by decide)

theorem isLine_of_mem_joined {mid : Text} {ps : List Text} (h : IsLine (joined mid ps)) {p : Text}
    (hp : p ∈ ps) : IsLine p := by
  induction ps with
  | nil => cases hp
  | cons q ps ih =>
    cases ps with
    | nil =>
      rw [List.mem_singleton.1 hp]
      exact h
    | cons r ps =>
      rw [joined, isLine_append, isLine_append] at h
      rcases List.mem_cons.1 hp with rfl | hp
      · exact h.1.1
      · exact ih h.2 hp

theorem isLine_of_afterWord? {head t rest : Text} (h : IsLine t)
    (ha : afterWord? head t = some rest) : IsLine rest := by
  obtain ⟨word, rfl, -⟩ := eq_append_of_afterWord? ha
  exact (isLine_append.1 h).2

theorem isLine_of_after? {head t rest : Text} (h : IsLine t) (ha : after? head t = some rest) :
    IsLine rest := by
  rw [eq_append_of_after? ha, isLine_append] at h
  exact h.2

end Text

open Text

/-! ## Groups and tokens -/

theorem Group.isLine_of_mem_cut {sep : Char} {t p : Text} (h : IsLine t) (hp : p ∈ cut sep 0 t) :
    IsLine p := by
  rw [← joined_cut sep 0 t] at h
  exact isLine_of_mem_joined h hp

theorem Group.isLine_strip? {value inner : Text} (h : IsLine value)
    (hs : strip? value = some inner) : IsLine inner := by
  obtain ⟨o, c, -, -, htrim⟩ := eq_of_strip? hs
  have line := isLine_trim h
  rw [htrim, isLine_append] at line
  exact line.1.subset (List.subset_cons_self o inner)

/-- The text inside a group, or the text itself. -/
theorem Group.isLine_unwrapped {value : Text} (h : IsLine value) :
    IsLine ((strip? value).getD value) := by
  cases hs : strip? value with
  | none => exact h
  | some inner => exact isLine_strip? h hs

/-- Key and value stand on one line each. -/
def Token.IsLine : Token → Prop
  | .bare text => Text.IsLine text
  | .pair key value => Text.IsLine key ∧ Text.IsLine value

theorem Token.isLine_ofSegment {segment : Text} (h : Text.IsLine segment) :
    (ofSegment segment).IsLine := by
  unfold ofSegment
  split
  · next key value hcut =>
    have piece {p : Text} (hp : p ∈ [key, value]) : Text.IsLine p :=
      Group.isLine_of_mem_cut h (hcut ▸ hp)
    exact ⟨isLine_trim (piece (by simp)), isLine_trim (piece (by simp))⟩
  · exact h

theorem Token.IsLine.written {t : Token} (h : t.IsLine) : Text.IsLine t.written := by
  cases t with
  | bare text => exact h
  | pair key value => exact isLine_append.2 ⟨isLine_append.2 ⟨h.1, by decide⟩, h.2⟩

theorem Token.IsLine.text {t : Token} (h : t.IsLine) : Text.IsLine t.text := by
  cases t with
  | bare text => exact h
  | pair key value => exact h.2

theorem Token.isLine_group? {t : Token} (h : t.IsLine) {inner : Text}
    (hg : t.group? = some inner) : Text.IsLine inner := by
  cases t with
  | bare text => exact Group.isLine_strip? h hg
  | pair key value => cases hg

/-- The tokens of a text on one line stand on one line each. -/
theorem isLine_tokenize {s : Text} (h : IsLine s) {t : Token} (ht : t ∈ tokenize s) :
    t.IsLine := by
  obtain ⟨p, hp, rfl⟩ := List.mem_map.1 ht
  obtain ⟨q, hq, rfl⟩ := List.mem_map.1 (List.mem_of_mem_filter hp)
  exact Token.isLine_ofSegment (isLine_trim (Group.isLine_of_mem_cut h hq))

theorem isLine_tokens {input : Option Text} (h : ∀ s ∈ input, IsLine s) :
    ∀ t ∈ tokens input, t.IsLine := by
  cases input with
  | none => exact nofun
  | some s => exact fun t ht => isLine_tokenize (h s rfl) ht

/-! ## Bundles -/

namespace Bundle

variable {κ : Type} {P : Parts κ}

def Entry.IsLine : Entry κ → Prop
  | .value _ text => Text.IsLine text
  | .unknown key => Text.IsLine key
  | .surplus text => Text.IsLine text

def Slot.IsLine : Slot κ → Prop
  | .entry e => e.IsLine
  | .group nested => Text.IsLine nested

theorem isLine_ofItem? {item value : Text} {k : κ} (h : Text.IsLine item)
    (hi : P.ofItem? item = some (k, value)) : Text.IsLine value := by
  obtain ⟨_, _, part⟩ := List.exists_of_findSome?_eq_some hi
  obtain ⟨name, _, named⟩ := List.exists_of_findSome?_eq_some part
  obtain ⟨rest, hrest, heq⟩ := Option.map_eq_some_iff.1 named
  obtain ⟨behind, hname, hdash⟩ := Option.bind_eq_some_iff.1 hrest
  cases heq
  exact isLine_of_after? (isLine_of_afterWord? h hname) hdash

theorem isLine_slots (unwrapped : ∀ value, Text.IsLine value → Text.IsLine (P.unwrapped value))
    {ts : List Token} (h : ∀ t ∈ ts, t.IsLine) (free : List κ) :
    ∀ s ∈ slots P free ts, s.IsLine := by
  induction ts generalizing free with
  | nil => exact nofun
  | cons t ts ih =>
    obtain ⟨ht, hts⟩ := List.forall_mem_cons.1 h
    cases t with
    | pair key value =>
      refine List.forall_mem_cons.2 ⟨?_, ih hts free⟩
      split
      · exact unwrapped value ht.2
      · exact ht.1
    | bare text =>
      unfold slots
      split
      · next hs => exact List.forall_mem_cons.2 ⟨Group.isLine_strip? ht hs, ih hts _⟩
      · next _ hi => exact List.forall_mem_cons.2 ⟨isLine_ofItem? ht hi, ih hts _⟩
      · exact List.forall_mem_cons.2 ⟨ht, ih hts _⟩
      · exact List.forall_mem_cons.2 ⟨ht, ih hts _⟩

/-- The entries of a bundle on one line stand on one line each, however deep its groups are. -/
theorem isLine_entries (unwrapped : ∀ value, Text.IsLine value → Text.IsLine (P.unwrapped value))
    {inner : Text} (h : Text.IsLine inner) : ∀ e ∈ entries P inner, e.IsLine := by
  induction hn : inner.length using Nat.strongRecOn generalizing inner with
  | _ n ih =>
    have slot := isLine_slots unwrapped (fun t ht => isLine_tokenize h ht) P.order
    intro e he
    rw [entries] at he
    obtain ⟨⟨s, hs⟩, -, he⟩ := List.mem_flatMap.1 he
    cases s with
    | entry e' => exact List.mem_singleton.1 he ▸ slot _ hs
    | group nested =>
      have shorter : nested.length < n := by
        obtain ⟨t, ht, hl⟩ := length_of_group hs
        have := length_text_of_mem_tokenize ht
        omega
      exact ih _ shorter (slot _ hs) rfl e he

end Bundle

end Inspector
