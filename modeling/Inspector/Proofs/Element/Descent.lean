import Inspector.Proofs.Bundle.Keys
import Inspector.Proofs.Descent
import Inspector.Proofs.Layout.Keys
import Inspector.Proofs.Position.Rotation
import Inspector.Appearance
import Inspector.Stroke

/-!
# The four readers of groups

A padding calls itself on the values of its pairs and on its bare items, a rotation and a bundle on
the group inside of an item. Whatever the text, balanced or not, they end, and follow groups no deeper
than half the length of the value.

    each reader ends on every input and nests at most half the length deep  (group_readers_descend)
-/

namespace Inspector

open Text

namespace Layout.Padding

/-- One token of the group of a padding: an entry that it names, or a token to warn of. -/
def part (kind : Padding) (t : Token) : Item ⊕ (Padding × Text) :=
  (given? kind t).elim (.inl (.unknown t)) .inr

/-- The calls of a padding: on what the tokens of its group give to the paddings they name. -/
def descent : Descent (Padding × Text) Item where
  text := Prod.snd
  parts a := (Group.strip? a.2).elim [.inl (.value a.1 a.2)] fun inner =>
    (tokenize inner).map (part a.1)
  enclosed := by
    rintro ⟨kind, value⟩ ⟨k, text⟩ h
    cases hv : Group.strip? value with
    | none => simp [hv] at h
    | some inner =>
      simp only [hv, Option.elim_some, List.mem_map] at h
      obtain ⟨t, ht, hpart⟩ := h
      have given : given? kind t = some (k, text) := by
        unfold part at hpart
        cases hg : given? kind t with
        | none => simp [hg] at hpart
        | some entry => simpa [hg] using hpart
      have inside : text.Sublist inner := text_of_given given ▸ text_sublist_of_mem_tokenize ht
      exact (Enclosed.of_strip? hv).of_sublist inside

theorem solves_items : descent.Solves fun a => items a.1 a.2 := by
  rintro ⟨kind, value⟩
  cases hv : Group.strip? value with
  | none =>
    simp only [descent, hv, Option.elim_none]
    rw [items]
    split
    · rfl
    · next inner hi => simp [hv] at hi
  | some inner =>
    simp only [descent, hv, Option.elim_some, List.flatMap_map]
    rw [items_of_group hv]
    refine List.flatMap_congr fun t _ => ?_
    unfold itemsOf part
    cases given? kind t <;> rfl

end Layout.Padding

namespace Bundle

variable {κ : Type}

/-- The calls of a bundle: on the groups among its items. -/
def descent (P : Parts κ) : Descent Text (Entry κ) where
  text := id
  parts inner := (slots P P.order (tokenize inner)).map fun
    | .entry e => .inl e
    | .group nested => .inr nested
  enclosed := by
    intro inner nested h
    obtain ⟨s, hs, hpart⟩ := List.mem_map.1 h
    cases s with
    | entry e => cases hpart
    | group text =>
      obtain rfl : text = nested := Sum.inr.inj hpart
      obtain ⟨t, ht, hg⟩ := strip?_of_group hs
      exact (Enclosed.of_strip? hg).within (text_sublist_of_mem_tokenize ht)

theorem solves_entries (P : Parts κ) : (descent P).Solves (entries P) := by
  intro inner
  rw [entries_eq, descent, List.flatMap_map]
  refine List.flatMap_congr fun s _ => ?_
  cases s <;> rfl

/-- Within a group of its own a bundle nests at most half as deep as the group is long. -/
theorem nesting_of_group {P : Parts κ} {value inner nested : Text} {n : Nat}
    (hv : Group.strip? value = some inner) (h : (descent P).Reaches n inner nested) :
    2 * (n + 1) ≤ value.length := by
  have outer := Group.length_strip? hv
  have calls : nested.length + 2 * n ≤ inner.length := Descent.length_reaches h
  omega

end Bundle

namespace Position

theorem strip?_of_group? {t : Token} {inner : Text} (h : t.group? = some inner) :
    Group.strip? t.text = some inner := by
  cases t with
  | bare text => exact h
  | pair key value => cases h

/-- The calls of a rotation: on the groups among the items of its group. -/
def rotationDescent : Descent Text Token where
  text := id
  parts value := (Group.strip? value).elim [.inl (.bare value)] fun inner =>
    (tokenize inner).map fun t => t.group?.elim (.inl t) .inr
  enclosed := by
    intro value nested h
    cases hv : Group.strip? value with
    | none => simp [hv] at h
    | some inner =>
      simp only [hv, Option.elim_some, List.mem_map] at h
      obtain ⟨t, ht, hpart⟩ := h
      have group : Group.strip? t.text = some nested := by
        cases hg : t.group? with
        | none => simp [hg] at hpart
        | some text =>
          obtain rfl : text = nested := by simpa [hg] using hpart
          exact strip?_of_group? hg
      have inside : t.text.Sublist inner := text_sublist_of_mem_tokenize ht
      exact ((Enclosed.of_strip? group).within inside).within (Enclosed.of_strip? hv).sublist

theorem solves_rotationItems : rotationDescent.Solves rotationItems := by
  intro value
  cases hv : Group.strip? value with
  | none =>
    simp only [rotationDescent, hv, Option.elim_none]
    rw [rotationItems]
    split
    · rfl
    · next inner hi => simp [hv] at hi
  | some inner =>
    simp only [rotationDescent, hv, Option.elim_some, List.flatMap_map]
    rw [Turns.rotationItems_of_group hv]
    refine List.flatMap_congr fun t _ => ?_
    cases t.group? <;> rfl

end Position

/-- Paddings, corner radii, stroke weights and rotations descend into groups: each reader calls itself
on shorter texts only, whatever they hold, and ends on every input, and the groups it follows nest at
most half as deep as the value is long. -/
theorem group_readers_descend :
    (Layout.Padding.descent.IsReadBy fun a => Layout.Padding.items a.1 a.2) ∧
    ((Bundle.descent Appearance.Corner.parts).IsReadBy (Bundle.entries Appearance.Corner.parts) ∧
      ∀ value inner nested n, Group.strip? value = some inner →
        (Bundle.descent Appearance.Corner.parts).Reaches n inner nested →
        2 * (n + 1) ≤ value.length) ∧
    ((Bundle.descent Stroke.Side.parts).IsReadBy (Bundle.entries Stroke.Side.parts) ∧
      ∀ value inner nested n, Group.strip? value = some inner →
        (Bundle.descent Stroke.Side.parts).Reaches n inner nested →
        2 * (n + 1) ≤ value.length) ∧
    Position.rotationDescent.IsReadBy Position.rotationItems := by
  refine ⟨?padding, ⟨?radii, ?radiiDepth⟩, ⟨?weights, ?weightsDepth⟩, ?rotation⟩
  case padding => exact Descent.isReadBy_of_solves Layout.Padding.solves_items
  case radii => exact Descent.isReadBy_of_solves (Bundle.solves_entries _)
  case weights => exact Descent.isReadBy_of_solves (Bundle.solves_entries _)
  case rotation => exact Descent.isReadBy_of_solves Position.solves_rotationItems
  case radiiDepth | weightsDepth =>
    intro value inner nested n group calls
    exact Bundle.nesting_of_group group calls

end Inspector
