import Inspector.Proofs.Text
import Inspector.Token
import Mathlib.Data.List.Forall2

/-!
# Tokens with the same keys in any case

Keys count in any case. Two tokens are the same but for the case of their key if both are bare or
both are pairs, the keys are the same in lower case, and texts and values are related as is asked
for: they are equal, or they hold items that are the same in this sense again.

    ts.Forall₂ (SameButKey SameBare SameValue) us, with `SameValue` by the key in lower case
    SameItems v v, and SameItems v v' if the items of both are the same but for their keys
-/

namespace Inspector

open Text

/-- Both bare or both pairs; keys are the same in any case, and the rest is related. What is asked
of two values may depend on their key, in lower case. -/
inductive Token.SameButKey (sameBare : Text → Text → Prop) (sameValue : Text → Text → Text → Prop) :
    Token → Token → Prop where
  | bare {text text' : Text} (h : sameBare text text') :
    SameButKey sameBare sameValue (.bare text) (.bare text')
  | pair {key key' value value' : Text} (hkey : lower key = lower key')
    (h : sameValue (lower key) value value') :
    SameButKey sameBare sameValue (.pair key value) (.pair key' value')

/-- Tokens that differ in the case of their keys alone. -/
abbrev Token.SameItem : Token → Token → Prop := SameButKey Eq fun _ => Eq

/-- Two values, each a group or what stands in one, with the same items but for their keys. -/
def SameItems (value value' : Text) : Prop :=
  List.Forall₂ Token.SameItem (tokenize ((Group.strip? value).getD value))
    (tokenize ((Group.strip? value').getD value'))

namespace Token

variable {sameBare : Text → Text → Prop} {sameValue : Text → Text → Text → Prop}

theorem SameButKey.refl (bare : ∀ text, sameBare text text)
    (value : ∀ key value, sameValue key value value) (t : Token) :
    SameButKey sameBare sameValue t t := by
  cases t with
  | bare text => exact .bare (bare text)
  | pair key v => exact .pair rfl (value (lower key) v)

end Token

/-- Two choices by one condition are related if both pairs of branches are. -/
theorem rel_ite {α β : Type} {R : α → β → Prop} {c : Prop} [Decidable c] {a b : α} {a' b' : β}
    (h : R a a') (h' : R b b') : R (if c then a else b) (if c then a' else b') := by
  split
  · exact h
  · exact h'

/-- What is made of each member may do without the proof that it is one. -/
theorem attach_flatMap {α β : Type} (l : List α) (f : α → List β) :
    (l.attach.flatMap fun a => f a.1) = l.flatMap f := by
  rw [← List.flatMap_map, List.attach_map_subtype_val]

theorem SameItems.refl (value : Text) : SameItems value value :=
  List.forall₂_same.2 fun t _ => .refl (fun _ => rfl) (fun _ _ => rfl) t

end Inspector
