import Inspector.Proofs.Text.Octets
import Inspector.Proofs.Token
import Mathlib.Data.List.Flatten

/-!
# Descents into groups

A reader of groups calls itself on what stands inside of them. One call is given by its parts from
left to right, each a member that it reads itself or another call; the text of that call stands, with
a bracket on either side, in the text of the call that makes it. So every call is at least two
characters shorter than its caller, calls nest at most half as deep as the text is long, and there is
one function that follows the parts.

    Reaches n a b → (text b).length + 2 * n ≤ (text a).length                       (length_reaches)
    Solves f → Solves g → g = f                                                      (unique_solves)
    no call reaches n deep from a → within n a = some (f a), where f solves D     (within_of_solves)
    Solves f → IsReadBy f                                                        (isReadBy_of_solves)
-/

namespace Inspector

open Text

/-! ## Texts within texts -/

namespace Text

theorem trim_sublist (t : Text) : (trim t).Sublist t := by
  obtain ⟨l, r, ht, -, -⟩ := exists_blanks t
  have inner : trim t <:+: t := ⟨l, r, ht.symm⟩
  exact inner.sublist

theorem sublist_joined {sep p : Text} {ps : List Text} (h : p ∈ ps) :
    p.Sublist (joined sep ps) := by
  induction ps with
  | nil => exact absurd h List.not_mem_nil
  | cons q qs ih =>
    cases qs with
    | nil =>
      obtain rfl : p = q := List.mem_singleton.1 h
      exact List.Sublist.refl _
    | cons r rs =>
      rcases List.mem_cons.1 h with rfl | h
      · rw [joined, List.append_assoc]
        exact List.sublist_append_left _ _
      · exact (ih h).trans (List.sublist_append_right _ _)

theorem octets_sublist {s t : Text} (h : s.Sublist t) : (octets s).Sublist (octets t) :=
  h.flatMap String.utf8EncodeChar

theorem length_octets_cons (c : Char) (t : Text) :
    (octets t).length < (octets (c :: t)).length := by
  have positive : 0 < (String.utf8EncodeChar c).length := by
    rw [String.length_utf8EncodeChar]
    exact c.utf8Size_pos
  show _ < (String.utf8EncodeChar c ++ octets t).length
  rw [List.length_append]
  omega

end Text

theorem Group.sublist_of_mem_cut {sep : Char} {t p : Text} (h : p ∈ Group.cut sep 0 t) :
    p.Sublist t := by
  have within : p.Sublist (joined [sep] (Group.cut sep 0 t)) := sublist_joined h
  rwa [Group.joined_cut] at within

theorem Token.text_ofSegment_sublist (s : Text) : (Token.ofSegment s).text.Sublist s := by
  unfold Token.ofSegment
  split
  · next key value h =>
    have piece : value ∈ Group.cut '=' 0 s := by simp [h]
    exact (trim_sublist value).trans (Group.sublist_of_mem_cut piece)
  · exact List.Sublist.refl s

/-- The text of a token stands in the text it is a token of. -/
theorem text_sublist_of_mem_tokenize {s : Text} {t : Token} (h : t ∈ tokenize s) :
    t.text.Sublist s := by
  simp only [tokenize, List.mem_map, List.mem_filter] at h
  obtain ⟨_, ⟨⟨piece, hpiece, rfl⟩, -⟩, rfl⟩ := h
  exact (Token.text_ofSegment_sublist _).trans
    ((trim_sublist piece).trans (Group.sublist_of_mem_cut hpiece))

/-- Whether a text stands in another with a character on either side. -/
def Enclosed (inner value : Text) : Prop := ∃ o c, (o :: inner ++ [c]).Sublist value

namespace Enclosed

variable {inner value : Text}

theorem of_strip? (h : Group.strip? value = some inner) : Enclosed inner value := by
  obtain ⟨o, c, -, -, ht⟩ := Group.eq_of_strip? h
  exact ⟨o, c, ht ▸ trim_sublist value⟩

theorem sublist (h : Enclosed inner value) : inner.Sublist value := by
  obtain ⟨o, c, h⟩ := h
  have inside : inner.Sublist (o :: inner ++ [c]) :=
    (List.sublist_cons_self o inner).trans (List.sublist_append_left _ _)
  exact inside.trans h

theorem of_sublist {part : Text} (hp : part.Sublist inner) (h : Enclosed inner value) :
    Enclosed part value := by
  obtain ⟨o, c, h⟩ := h
  exact ⟨o, c, ((hp.cons_cons o).append (List.Sublist.refl [c])).trans h⟩

theorem within {outer : Text} (h : Enclosed inner value) (hv : value.Sublist outer) :
    Enclosed inner outer := by
  obtain ⟨o, c, h⟩ := h
  exact ⟨o, c, h.trans hv⟩

theorem length_le (h : Enclosed inner value) : inner.length + 2 ≤ value.length := by
  obtain ⟨o, c, h⟩ := h
  have := h.length_le
  simp only [List.length_cons, List.length_append, List.length_nil] at this
  omega

theorem length_octets_le (h : Enclosed inner value) :
    (octets inner).length + 2 ≤ (octets value).length := by
  obtain ⟨o, c, h⟩ := h
  have whole := (octets_sublist h).length_le
  have opener := length_octets_cons o (inner ++ [c])
  have closer : (octets inner).length < (octets (inner ++ [c])).length := by
    have last := length_octets_cons c []
    rw [octets, octets, List.flatMap_append, List.length_append]
    exact Nat.lt_add_of_pos_right last
  rw [List.cons_append] at whole
  omega

end Enclosed

/-! ## Calls -/

/-- How a reader of groups calls itself. -/
structure Descent (α β : Type) where
  /-- The text that a call is given. -/
  text : α → Text
  /-- What a call reads from left to right: members of its own, or what further calls read. -/
  parts : α → List (β ⊕ α)
  enclosed : ∀ {a b}, .inr b ∈ parts a → Enclosed (text b) (text a)

namespace Descent

variable {α β : Type} (D : Descent α β)

def Calls (a b : α) : Prop := .inr b ∈ D.parts a

/-- Calls nested `n` deep lead from the one to the other. -/
inductive Reaches : Nat → α → α → Prop where
  | here (a : α) : Reaches 0 a a
  | call {n : Nat} {a b c : α} (first : D.Calls a b) (rest : Reaches n b c) : Reaches (n + 1) a c

/-- What a call reads if calls may nest `n` deep, itself included; nothing if they nest deeper. -/
def within : Nat → α → Option (List β)
  | 0, _ => none
  | n + 1, a => ((D.parts a).mapM (Sum.elim (fun b => some [b]) (within n))).map List.flatten

/-- A function that reads its own members and calls itself for the rest. -/
def Solves (f : α → List β) : Prop :=
  ∀ a, f a = (D.parts a).flatMap (Sum.elim (fun b => [b]) f)

/-- The descent ends on every input, and `f` is what it reads there. -/
structure IsReadBy (f : α → List β) : Prop where
  unfolds : D.Solves f
  only : ∀ g, D.Solves g → g = f
  /-- A call is given a shorter text than its caller, in characters and in octets. -/
  shorter : ∀ a b, D.Calls a b →
    (D.text b).length < (D.text a).length ∧
      (octets (D.text b)).length < (octets (D.text a)).length
  /-- Calls nest at most half as deep as the text is long, in characters and in octets. -/
  nesting : ∀ n a b, D.Reaches n a b →
    2 * n ≤ (D.text a).length ∧ 2 * n ≤ (octets (D.text a)).length
  /-- As many nested calls as that are enough for every text. -/
  answers : ∀ a, D.within ((D.text a).length / 2 + 1) a = some (f a)

variable {D}

/-- What every call lessens by two is lessened by twice the number of nested calls. -/
theorem le_of_reaches (size : α → Nat) (step : ∀ {a b}, D.Calls a b → size b + 2 ≤ size a)
    {n : Nat} {a b : α} (h : D.Reaches n a b) : size b + 2 * n ≤ size a := by
  induction h with
  | here a => exact Nat.le_refl _
  | call first rest ih =>
    have := step first
    omega

theorem length_reaches {n : Nat} {a b : α} (h : D.Reaches n a b) :
    (D.text b).length + 2 * n ≤ (D.text a).length :=
  le_of_reaches (fun a => (D.text a).length) (fun h => (D.enclosed h).length_le) h

theorem length_octets_reaches {n : Nat} {a b : α} (h : D.Reaches n a b) :
    (octets (D.text b)).length + 2 * n ≤ (octets (D.text a)).length :=
  le_of_reaches (fun a => (octets (D.text a)).length)
    (fun h => (D.enclosed h).length_octets_le) h

theorem flatMap_parts_congr {f g : α → List β} {a : α} (h : ∀ b, D.Calls a b → f b = g b) :
    (D.parts a).flatMap (Sum.elim (fun b => [b]) f) =
      (D.parts a).flatMap (Sum.elim (fun b => [b]) g) := by
  refine List.flatMap_congr fun part hpart => ?_
  cases part with
  | inl member => rfl
  | inr b => exact h b hpart

/-- The parts leave one function only; the induction is on the length of the text. -/
theorem unique_solves {f g : α → List β} (hf : D.Solves f) (hg : D.Solves g) : g = f := by
  funext a
  induction hn : (D.text a).length using Nat.strongRecOn generalizing a with
  | _ n ih =>
    rw [hf a, hg a]
    refine flatMap_parts_congr fun b hb => ih _ ?_ b rfl
    have := (D.enclosed hb).length_le
    omega

theorem mapM_eq_some {γ δ : Type} {f : γ → Option δ} {g : γ → δ} {l : List γ}
    (h : ∀ a ∈ l, f a = some (g a)) : l.mapM f = some (l.map g) := by
  induction l with
  | nil => rfl
  | cons a l ih =>
    obtain ⟨head, tail⟩ := List.forall_mem_cons.1 h
    rw [List.mapM_cons, head, ih tail]
    rfl

/-- Where no call nests `n` deep, `n` nested calls are enough. -/
theorem within_of_solves {f : α → List β} (hf : D.Solves f) {n : Nat} {a : α}
    (h : ∀ b, ¬ D.Reaches n a b) : D.within n a = some (f a) := by
  induction n generalizing a with
  | zero => exact absurd (.here a) (h a)
  | succ n ih =>
    have each : ∀ part ∈ D.parts a,
        Sum.elim (fun b => some [b]) (D.within n) part =
          some (Sum.elim (fun b => [b]) f part) := by
      intro part hpart
      cases part with
      | inl member => rfl
      | inr b => exact ih fun c hc => h c (.call hpart hc)
    rw [within, mapM_eq_some each, hf a]
    rfl

theorem isReadBy_of_solves {f : α → List β} (hf : D.Solves f) : D.IsReadBy f where
  unfolds := hf
  only g hg := unique_solves hf hg
  shorter a b h := by
    have characters := (D.enclosed h).length_le
    have octets := (D.enclosed h).length_octets_le
    omega
  nesting n a b h := by
    have characters := length_reaches h
    have octets := length_octets_reaches h
    omega
  answers a := by
    refine within_of_solves hf fun b hb => ?_
    have := length_reaches hb
    omega

end Descent

end Inspector
