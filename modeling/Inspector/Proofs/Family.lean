import Mathlib.Data.List.Basic
import Mathlib.Data.List.Count

/-!
# Runs over interleaved families

The members of a list fall into families, and a state has a part for each family. A step that, in
the part of its own family, sees nothing of the others and that leaves the other parts alone, does
there what it would have done without them. So the part of a family after a run hangs on the
members of that family alone, in whatever way the families are interleaved.

    SameFamilies family l l' → l.Perm l'                                  (SameFamilies.perm)
    part f (l.foldl step s) = (l.filter (family · = f)).foldl step (part f s)   (part_foldl)
-/

namespace Inspector

/-! ## Families of a list -/

section

variable {α φ : Type} [DecidableEq φ] {family : α → φ} {l l' : List α}

/-- Every family has the same members in both lists, in the same order. -/
def SameFamilies (family : α → φ) (l l' : List α) : Prop :=
  ∀ f, (l.filter fun a => family a = f) = l'.filter fun a => family a = f

/-- Families that are interleaved in two ways are the same members in two orders. -/
theorem SameFamilies.perm (h : SameFamilies family l l') : l.Perm l' := by
  classical
  rw [List.perm_iff_count]
  intro a
  have own (l : List α) : (l.filter fun b => family b = family a).count a = l.count a :=
    List.count_filter (by simp)
  rw [← own l, ← own l', h (family a)]

end

/-! ## Changes within a family -/

variable {σ φ : Type} {part : φ → σ → σ} {g : φ}

/-- A change that acts on the part of `g` as if there were no other, and on no other part. -/
structure ActsWithin (part : φ → σ → σ) (g : φ) (c : σ → σ) : Prop where
  here (s : σ) : part g (c s) = c (part g s)
  elsewhere {f : φ} (hf : f ≠ g) (s : σ) : part f (c s) = part f s

namespace ActsWithin

variable {c c' : σ → σ}

theorem nothing : ActsWithin part g fun s => s := ⟨fun _ => rfl, fun _ _ => rfl⟩

theorem andThen (hc : ActsWithin part g c) (hc' : ActsWithin part g c') :
    ActsWithin part g fun s => c' (c s) where
  here s := by rw [hc'.here, hc.here]
  elsewhere hf s := by rw [hc'.elsewhere hf, hc.elsewhere hf]

/-- A choice that the part of `g` decides. -/
theorem ite {p : σ → Prop} [DecidablePred p] (hp : ∀ s, p (part g s) ↔ p s)
    (hc : ActsWithin part g c) (hc' : ActsWithin part g c') :
    ActsWithin part g fun s => if p s then c s else c' s where
  here s := by
    by_cases h : p s
    · rw [if_pos h, if_pos ((hp s).2 h), hc.here]
    · rw [if_neg h, if_neg fun h' => h ((hp s).1 h'), hc'.here]
  elsewhere hf s := by
    by_cases h : p s
    · rw [if_pos h, hc.elsewhere hf]
    · rw [if_neg h, hc'.elsewhere hf]

theorem foldl {α : Type} {step : σ → α → σ} {l : List α}
    (h : ∀ a ∈ l, ActsWithin part g (step · a)) : ActsWithin part g fun s => l.foldl step s := by
  induction l with
  | nil => exact nothing
  | cons a l ih =>
    obtain ⟨ha, hl⟩ := List.forall_mem_cons.1 h
    exact ha.andThen (ih hl)

end ActsWithin

/-! ## Runs -/

section

variable [DecidableEq φ] {α : Type} {family : α → φ} {step : σ → α → σ}

/-- The part of a family after a run is what its own members make of it. -/
theorem part_foldl (h : ∀ a, ActsWithin part (family a) (step · a)) (f : φ) (l : List α) (s : σ) :
    part f (l.foldl step s) = (l.filter fun a => family a = f).foldl step (part f s) := by
  induction l generalizing s with
  | nil => rfl
  | cons a l ih =>
    rw [List.foldl_cons, ih]
    by_cases hf : family a = f
    · have own : part f (step s a) = step (part f s) a := by
        rw [← hf]
        exact (h a).here s
      rw [List.filter_cons_of_pos (by simpa using hf), List.foldl_cons, own]
    · rw [List.filter_cons_of_neg (by simpa using hf), (h a).elsewhere (Ne.symm hf)]

/-- Two runs over the same families come to the same parts. -/
theorem part_foldl_eq (h : ∀ a, ActsWithin part (family a) (step · a)) {l l' : List α}
    (same : SameFamilies family l l') (s : σ) (f : φ) :
    part f (l.foldl step s) = part f (l'.foldl step s) := by
  rw [part_foldl h, part_foldl h, same f]

end

end Inspector
