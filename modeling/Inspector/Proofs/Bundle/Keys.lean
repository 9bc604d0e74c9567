import Inspector.Bundle
import Inspector.Proofs.Token.Keys

/-!
# Bundles with the same keys in any case

A bundle finds its parts by their names in any case, so two bundles with the same tokens but for the
keys, in their groups as well, have the same entries. An unknown key is reported as it is written,
and that is all that tells their entries apart.

    entries P inner = (slots P P.order (tokenize inner)).flatMap (·.entries P)        (entries_eq)
    SameBundle v v' → the entries of both are the same but for unknown keys         (same_entries)
-/

namespace Inspector

open Text

/-- Equal values, or bundles with the same tokens but for the keys, in the groups inside as well. -/
inductive SameBundle : Text → Text → Prop where
  | same (value : Text) : SameBundle value value
  | group {value value' inner inner' : Text} (hv : Group.strip? value = some inner)
    (hv' : Group.strip? value' = some inner')
    (items : List.Forall₂ (Token.SameButKey SameBundle fun _ => Eq) (tokenize inner)
      (tokenize inner')) : SameBundle value value'

/-- The same tokens of a bundle but for the keys, in the groups inside as well. -/
abbrev SameBundleTokens : List Token → List Token → Prop :=
  List.Forall₂ (Token.SameButKey SameBundle fun _ => Eq)

theorem SameBundleTokens.refl (ts : List Token) : SameBundleTokens ts ts :=
  List.forall₂_same.2 fun t _ => .refl SameBundle.same (fun _ _ => rfl) t

namespace Bundle

variable {κ : Type} {P : Parts κ}

/-- Equal entries, or two unknown keys. -/
inductive Entry.Same : Entry κ → Entry κ → Prop where
  | same (e : Entry κ) : Same e e
  | unknown (key key' : Text) : Same (.unknown key) (.unknown key')

/-- The same entries, or groups with the same tokens but for the keys. -/
inductive Slot.Same : Slot κ → Slot κ → Prop where
  | entry {e e' : Entry κ} (h : e.Same e') : Same (.entry e) (.entry e')
  | group {nested nested' : Text} (h : SameBundleTokens (tokenize nested) (tokenize nested')) :
    Same (.group nested) (.group nested')

/-- The entries of one slot. -/
def Slot.entries (P : Parts κ) : Slot κ → List (Entry κ)
  | .entry e => [e]
  | .group nested => Bundle.entries P nested

theorem entries_eq (inner : Text) :
    entries P inner = (slots P P.order (tokenize inner)).flatMap (Slot.entries P) := by
  rw [entries]
  refine Eq.trans ?_ (attach_flatMap _ (Slot.entries P))
  congr 1
  funext ⟨s, hs⟩
  cases s <;> rfl

theorem ofName?_eq_of_lower {key key' : Text} (h : lower key = lower key') :
    P.ofName? key = P.ofName? key' := by
  have name : lower (trim key) = lower (trim key') := by
    rw [← trim_lower, h, trim_lower]
  rw [Parts.ofName?, name, Parts.ofName?]

theorem same_slots {ts ts' : List Token} (h : SameBundleTokens ts ts') (free : List κ) :
    List.Forall₂ Slot.Same (slots P free ts) (slots P free ts') := by
  induction h generalizing free with
  | nil => exact .nil
  | cons ht _ ih =>
    cases ht with
    | pair hkey hvalue =>
      rw [slots, slots, ofName?_eq_of_lower hkey, hvalue]
      refine .cons ?_ (ih free)
      split
      · exact .entry (.same _)
      · exact .entry (.unknown _ _)
    | bare htext =>
      cases htext with
      | same =>
        unfold slots
        split
        · exact .cons (.group (.refl _)) (ih _)
        · exact .cons (.entry (.same _)) (ih _)
        · exact .cons (.entry (.same _)) (ih _)
        · exact .cons (.entry (.same _)) (ih _)
      | group hv hv' items =>
        simp only [slots, hv, hv']
        exact .cons (.group items) (ih free)

/-- The entries of two bundles with the same tokens but for the keys; the induction is on the
length, since a group inside is read as a bundle of its own. -/
theorem same_entries {inner inner' : Text}
    (h : SameBundleTokens (tokenize inner) (tokenize inner')) :
    List.Forall₂ Entry.Same (entries P inner) (entries P inner') := by
  induction hn : inner.length using Nat.strongRecOn generalizing inner inner' with
  | _ n ih =>
    have shorter : ∀ s ∈ slots P P.order (tokenize inner),
        ∀ nested, s = .group nested → nested.length < n := by
      rintro s hs nested rfl
      obtain ⟨t, ht, hl⟩ := length_of_group hs
      have := length_text_of_mem_tokenize ht
      omega
    have slots := (List.forall₂_and_left _ _).2 ⟨shorter, same_slots h P.order⟩
    rw [entries_eq, entries_eq]
    refine List.rel_flatMap slots fun s s' hs => ?_
    obtain ⟨hlength, hsame⟩ := hs
    cases hsame with
    | entry he => exact .cons he .nil
    | group hg => exact ih _ (hlength _ rfl) hg rfl

end Bundle

end Inspector
