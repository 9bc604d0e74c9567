import Inspector.Group
import Inspector.Proofs.Text

/-!
# Depths and cuts

A text is cut at the separators that stand at depth zero, so a text without one is a single piece,
and two texts joined by a separator are cut apart if nothing is left open in the first. A balanced
text closes whatever it opens and nothing else: put between brackets it is a group, and the group
is whole under every separator.

    isBalanced 0 t → strip? ("(" ++ t ++ ")") = some t                            (strip?_enclosed)
    isBalanced 0 t → isBalanced 0 ("(" ++ t ++ ")")                           (isBalanced_enclosed)
    cut sep d t = [t] ↔ isWhole sep d t                                     (cut_eq_singleton_iff)
    joined [sep] (cut sep d t) = t                                                    (joined_cut)
    depthAfter d a = 0 → cut sep d (a ++ sep :: b) = cut sep d a ++ cut sep 0 b    (cut_append_cons)
    p ∈ cut sep 0 t → isWhole sep 0 p                                        (isWhole_of_mem_cut)
    cut sep 0 (joined [sep] ps) = ps, if the pieces are whole and closed            (cut_joined)
-/

namespace Inspector.Group

open Text

/-! ## Depths -/

/-- Nothing is closed at depth zero, and nothing is open at the end. -/
def isBalanced (depth : Nat) : Text → Bool
  | [] => depth == 0
  | c :: r => !(isCloser c && depth == 0) && isBalanced (shift depth c) r

@[simp] theorem depthAfter_nil (d : Nat) : depthAfter d [] = d := rfl

@[simp] theorem depthAfter_cons (d : Nat) (c : Char) (t : Text) :
    depthAfter d (c :: t) = depthAfter (shift d c) t := rfl

theorem depthAfter_append (d : Nat) (a b : Text) :
    depthAfter d (a ++ b) = depthAfter (depthAfter d a) b :=
  List.foldl_append

def brackets : List Char := ['(', '{', '[', ')', '}', ']']

theorem shift_of_not_mem {c : Char} (h : c ∉ brackets) (d : Nat) : shift d c = d := by
  simp only [brackets, List.mem_cons, List.not_mem_nil, or_false, not_or] at h
  simp [shift, isOpener, isCloser, h]

theorem depthAfter_of_not_mem {t : Text} (h : ∀ c ∈ t, c ∉ brackets) (d : Nat) :
    depthAfter d t = d := by
  induction t with
  | nil => rfl
  | cons c t ih =>
    obtain ⟨hc, ht⟩ := List.forall_mem_cons.1 h
    rw [depthAfter_cons, shift_of_not_mem hc, ih ht]

theorem not_mem_brackets_of_blank {c : Char} (h : isBlank c) : c ∉ brackets := by
  have notBlank : brackets.all (!isBlank ·) := by decide
  intro hc
  have := List.all_eq_true.1 notBlank c hc
  simp [h] at this

theorem shift_of_blank {c : Char} (h : isBlank c) (d : Nat) : shift d c = d :=
  shift_of_not_mem (not_mem_brackets_of_blank h) d

theorem depthAfter_of_blank {t : Text} (h : ∀ c ∈ t, isBlank c) (d : Nat) : depthAfter d t = d :=
  depthAfter_of_not_mem (fun c hc => not_mem_brackets_of_blank (h c hc)) d

/-- One bracket more around a character that closes nothing at depth zero. -/
theorem shift_succ {d : Nat} {c : Char} (h : (isCloser c && d == 0) = false) :
    shift (d + 1) c = shift d c + 1 := by
  unfold shift
  split
  · rfl
  · split
    · next hc =>
      have : d ≠ 0 := by simpa [hc] using h
      omega
    · rfl

/-- Inside a bracket a balanced text neither closes the bracket nor opens another for good. -/
theorem staysOpen_succ_of_isBalanced {d : Nat} {t : Text} (h : isBalanced d t) :
    staysOpen (d + 1) t ∧ depthAfter (d + 1) t = 1 := by
  induction t generalizing d with
  | nil => simpa [isBalanced, staysOpen] using h
  | cons c t ih =>
    simp only [isBalanced, Bool.and_eq_true, Bool.not_eq_true'] at h
    obtain ⟨hc, ht⟩ := h
    obtain ⟨hs, hd⟩ := ih ht
    rw [staysOpen, depthAfter_cons, shift_succ hc, hs, hd]
    simp

theorem depthAfter_of_isBalanced {d : Nat} {t : Text} (h : isBalanced d t) :
    depthAfter d t = 0 := by
  induction t generalizing d with
  | nil => simpa [isBalanced] using h
  | cons c t ih =>
    simp only [isBalanced, Bool.and_eq_true] at h
    exact ih h.2

theorem isBalanced_append {d : Nat} {a : Text} (h : isBalanced d a) (b : Text) :
    isBalanced d (a ++ b) = isBalanced 0 b := by
  induction a generalizing d with
  | nil =>
    obtain rfl : d = 0 := by simpa [isBalanced] using h
    rfl
  | cons c a ih =>
    simp only [isBalanced, Bool.and_eq_true] at h
    rw [List.cons_append, isBalanced, h.1, Bool.true_and, ih h.2]

theorem isBalanced_of_not_mem {t : Text} (h : ∀ c ∈ t, c ∉ brackets) : isBalanced 0 t := by
  induction t with
  | nil => rfl
  | cons c t ih =>
    obtain ⟨hc, ht⟩ := List.forall_mem_cons.1 h
    have closer : isCloser c = false := by
      simp only [brackets, List.mem_cons, List.not_mem_nil, or_false, not_or] at hc
      simp [isCloser, hc]
    rw [isBalanced, closer, shift_of_not_mem hc, ih ht]
    rfl

/-- A closer behind a balanced text closes the bracket before it. -/
theorem isBalanced_concat {r : Char} (hr : ∀ d, shift (d + 1) r = d) {d : Nat} {t : Text}
    (h : isBalanced d t) : isBalanced (d + 1) (t ++ [r]) := by
  induction t generalizing d with
  | nil =>
    obtain rfl : d = 0 := by simpa [isBalanced] using h
    simp [isBalanced, hr]
  | cons c t ih =>
    simp only [isBalanced, Bool.and_eq_true, Bool.not_eq_true'] at h
    rw [List.cons_append, isBalanced, shift_succ h.1, ih h.2]
    simp

/-- Letter case changes no depth. -/
theorem shift_toLower (d : Nat) (c : Char) : shift d c.toLower = shift d c := by
  have noLetter {b : Char} (hb : b ∈ brackets) :
      b.toNat < 65 ∨ 122 < b.toNat ∨ b.toNat = 91 ∨ b.toNat = 93 := by
    have each : brackets.all fun b =>
      b.toNat < 65 || 122 < b.toNat || b.toNat == 91 || b.toNat == 93 := by decide
    simpa [or_assoc] using List.all_eq_true.1 each b hb
  rcases toLower_cases c with h | ⟨h1, h2, h3⟩
  · rw [h]
  · have upper : c ∉ brackets := fun hc => by have := noLetter hc; omega
    have lower : c.toLower ∉ brackets := fun hc => by have := noLetter hc; omega
    rw [shift_of_not_mem upper, shift_of_not_mem lower]

theorem depthAfter_lower (d : Nat) (t : Text) : depthAfter d (lower t) = depthAfter d t := by
  induction t generalizing d with
  | nil => rfl
  | cons c t ih =>
    show depthAfter (shift d c.toLower) (lower t) = _
    rw [shift_toLower, ih, depthAfter_cons]

/-! ## Groups -/

theorem brackets_of_closerOf? {o c : Char} (h : closerOf? o = some c) :
    o = '(' ∧ c = ')' ∨ o = '\x7b' ∧ c = '\x7d' ∨ o = '[' ∧ c = ']' := by
  unfold closerOf? at h
  split at h
  · next ho => exact .inl ⟨ho, (Option.some.inj h).symm⟩
  · split at h
    · next ho => exact .inr (.inl ⟨ho, (Option.some.inj h).symm⟩)
    · split at h
      · next ho => exact .inr (.inr ⟨ho, (Option.some.inj h).symm⟩)
      · simp at h

theorem mem_brackets_of_closerOf? {o c : Char} (h : closerOf? o = some c) :
    o ∈ brackets ∧ c ∈ brackets := by
  rcases brackets_of_closerOf? h with ⟨rfl, rfl⟩ | ⟨rfl, rfl⟩ | ⟨rfl, rfl⟩ <;> decide

theorem not_isBlank_of_closerOf? {o c : Char} (h : closerOf? o = some c) :
    isBlank o = false ∧ isBlank c = false := by
  rcases brackets_of_closerOf? h with ⟨rfl, rfl⟩ | ⟨rfl, rfl⟩ | ⟨rfl, rfl⟩ <;> exact ⟨rfl, rfl⟩

/-- A balanced text between two brackets of one kind is the text inside of that group. -/
theorem strip?_enclosed {o c : Char} (ho : isBlank o = false) (hc : isBlank c = false)
    (h : closerOf? o = some c) {t : Text} (ht : isBalanced 0 t) :
    strip? (o :: t ++ [c]) = some t := by
  have stays : staysOpen 1 t := (staysOpen_succ_of_isBalanced ht).1
  rw [strip?, trim_enclosed ho hc]
  simp [h, stays]

theorem isBalanced_enclosed {o c : Char} (h : closerOf? o = some c) {t : Text}
    (ht : isBalanced 0 t) : isBalanced 0 (o :: t ++ [c]) := by
  rcases brackets_of_closerOf? h with ⟨rfl, rfl⟩ | ⟨rfl, rfl⟩ | ⟨rfl, rfl⟩ <;>
    exact isBalanced_concat (fun _ => rfl) ht

/-- What is inside of a group, and what is around it. -/
theorem eq_of_strip? {value inner : Text} (h : strip? value = some inner) :
    ∃ o c, closerOf? o = some c ∧ staysOpen 1 inner ∧ trim value = o :: inner ++ [c] := by
  unfold strip? at h
  split at h
  · simp at h
  · next o rest hv =>
    split at h
    · next c l ho hl =>
      split at h
      · next hlc =>
        simp only [Bool.and_eq_true, decide_eq_true_eq] at hlc
        obtain ⟨rfl, hs⟩ := hlc
        obtain rfl := Option.some.inj h
        have hrest : rest = rest.dropLast ++ [l] := (List.dropLast_append_getLast? l hl).symm
        exact ⟨o, l, ho, hs, by rw [hv, List.cons_append, ← hrest]⟩
      · simp at h
    · simp at h

/-- A text without brackets is no group. -/
theorem strip?_eq_none_of_not_mem {t : Text} (h : ∀ c ∈ trim t, c ∉ brackets) :
    strip? t = none := by
  cases hs : strip? t with
  | none => rfl
  | some inner =>
    obtain ⟨o, c, hoc, -, ht⟩ := eq_of_strip? hs
    have opener : o ∈ trim t := by
      rw [ht]
      exact List.mem_cons_self
    exact absurd (mem_brackets_of_closerOf? hoc).1 (h o opener)

/-! ## Cuts -/

/-- No separator stands at depth zero. -/
def isWhole (sep : Char) (depth : Nat) : Text → Bool
  | [] => true
  | c :: r => !(c == sep && depth == 0) && isWhole sep (shift depth c) r

variable {sep : Char}

theorem isWhole_append (d : Nat) (a b : Text) :
    isWhole sep d (a ++ b) = (isWhole sep d a && isWhole sep (depthAfter d a) b) := by
  induction a generalizing d with
  | nil => simp [isWhole]
  | cons c a ih => simp [isWhole, ih, Bool.and_assoc]

theorem isWhole_of_not_mem {t : Text} (h : sep ∉ t) (d : Nat) : isWhole sep d t := by
  induction t generalizing d with
  | nil => rfl
  | cons c t ih =>
    have hc : c ≠ sep := fun hc => h (hc ▸ List.mem_cons_self)
    have ht : sep ∉ t := fun ht => h (List.mem_cons_of_mem c ht)
    simp [isWhole, hc, ih ht]

theorem isWhole_of_staysOpen {d : Nat} {t : Text} (hd : 0 < d) (h : staysOpen d t) :
    isWhole sep d t := by
  induction t generalizing d with
  | nil => rfl
  | cons c t ih =>
    simp only [staysOpen, Bool.and_eq_true, decide_eq_true_eq] at h
    have : d ≠ 0 := by omega
    simp [isWhole, this, ih h.1 h.2]

/-- A group is whole under every separator that is no bracket, whatever stands around it. -/
theorem isWhole_group {name t r : Text} {o c : Char} (hname : isWhole sep 0 name)
    (hdepth : depthAfter 0 name = 0) (hoc : closerOf? o = some c) (ht : staysOpen 1 t)
    (hsep : sep ∉ brackets) (hr : sep ∉ r) :
    isWhole sep 0 (name ++ (o :: t ++ [c]) ++ r) := by
  have ho : sep ≠ o := fun h => hsep (h ▸ (mem_brackets_of_closerOf? hoc).1)
  have hc : sep ≠ c := fun h => hsep (h ▸ (mem_brackets_of_closerOf? hoc).2)
  have first : shift 0 o = 1 := by
    rcases brackets_of_closerOf? hoc with ⟨rfl, -⟩ | ⟨rfl, -⟩ | ⟨rfl, -⟩ <;> rfl
  have inside : isWhole sep 1 t := isWhole_of_staysOpen Nat.one_pos ht
  have last : isWhole sep (depthAfter 1 t) [c] := by simp [isWhole, hc.symm]
  have behind : isWhole sep (depthAfter 0 (name ++ (o :: t ++ [c]))) r := isWhole_of_not_mem hr _
  rw [isWhole_append, isWhole_append, hname, hdepth, List.cons_append, isWhole, first,
    isWhole_append, inside, last]
  rw [List.cons_append] at behind
  simp [ho.symm, behind]

theorem isWhole_enclosed {t : Text} {o c : Char} (hoc : closerOf? o = some c) (ht : staysOpen 1 t)
    (hsep : sep ∉ brackets) : isWhole sep 0 (o :: t ++ [c]) := by
  have alone : isWhole sep 0 ([] ++ (o :: t ++ [c]) ++ []) :=
    isWhole_group rfl rfl hoc ht hsep List.not_mem_nil
  rwa [List.nil_append, List.append_nil] at alone

theorem cut_ne_nil (sep : Char) (d : Nat) (t : Text) : cut sep d t ≠ [] := by
  cases t with
  | nil => simp [cut]
  | cons c t =>
    rw [cut]
    split
    · simp
    · split <;> simp

/-- A character that is no separator at depth zero belongs to the first piece. -/
theorem cut_cons {d : Nat} {c : Char} (h : ¬ (c = sep ∧ d = 0)) (t : Text) :
    cut sep d (c :: t) = (cut sep (shift d c) t).modifyHead (c :: ·) := by
  rw [cut, if_neg h]
  cases hp : cut sep (shift d c) t with
  | nil => exact absurd hp (cut_ne_nil sep _ t)
  | cons p ps => rfl

/-- Nothing is lost but the separators. -/
theorem joined_cut (sep : Char) (d : Nat) (t : Text) : joined [sep] (cut sep d t) = t := by
  induction t generalizing d with
  | nil => rfl
  | cons c t ih =>
    by_cases hc : c = sep ∧ d = 0
    · have := ih 0
      rw [cut, if_pos hc]
      cases hp : cut sep 0 t with
      | nil => exact absurd hp (cut_ne_nil sep 0 t)
      | cons p ps =>
        rw [hp] at this
        rw [joined, this, hc.1]
        rfl
    · have := ih (shift d c)
      rw [cut_cons hc]
      cases hp : cut sep (shift d c) t with
      | nil => exact absurd hp (cut_ne_nil sep _ t)
      | cons p ps =>
        rw [hp] at this
        cases ps with
        | nil => exact congrArg (c :: ·) this
        | cons q qs => exact congrArg (c :: ·) this

theorem cut_eq_singleton_iff {d : Nat} {t : Text} : cut sep d t = [t] ↔ isWhole sep d t := by
  induction t generalizing d with
  | nil => simp [cut, isWhole]
  | cons c t ih =>
    by_cases hc : c = sep ∧ d = 0
    · simp [cut, isWhole, hc]
    · have hw : (c == sep && d == 0) = false := by simpa using hc
      rw [cut_cons hc, isWhole, hw, Bool.not_false, Bool.true_and, ← ih]
      cases cut sep (shift d c) t with
      | nil => simp
      | cons p ps => simp

/-- Behind a separator at depth zero the cuts start afresh. -/
theorem cut_append_cons (hsep : shift 0 sep = 0) {d : Nat} {a : Text} (h : depthAfter d a = 0)
    (b : Text) : cut sep d (a ++ sep :: b) = cut sep d a ++ cut sep 0 b := by
  induction a generalizing d with
  | nil =>
    obtain rfl : d = 0 := h
    simp [cut]
  | cons c a ih =>
    by_cases hc : c = sep ∧ d = 0
    · obtain ⟨rfl, rfl⟩ := hc
      have hd : depthAfter 0 a = 0 := by rwa [depthAfter_cons, hsep] at h
      rw [List.cons_append, cut, if_pos ⟨rfl, rfl⟩, cut, if_pos ⟨rfl, rfl⟩, ih hd,
        List.cons_append]
    · rw [List.cons_append, cut_cons hc, cut_cons hc, ih h]
      cases hp : cut sep (shift d c) a with
      | nil => exact absurd hp (cut_ne_nil sep _ a)
      | cons p ps => rfl

/-- No piece of a text can be cut again. -/
theorem isWhole_of_cut_eq {d : Nat} {t p : Text} {ps : List Text} (h : cut sep d t = p :: ps) :
    isWhole sep d p ∧ ∀ q ∈ ps, isWhole sep 0 q := by
  induction t generalizing d p ps with
  | nil =>
    obtain ⟨rfl, rfl⟩ : [] = p ∧ [] = ps := by simpa [cut] using h
    simp [isWhole]
  | cons c t ih =>
    by_cases hc : c = sep ∧ d = 0
    · rw [cut, if_pos hc] at h
      obtain ⟨rfl, rfl⟩ := List.cons.inj h
      refine ⟨rfl, fun q hq => ?_⟩
      cases ht : cut sep 0 t with
      | nil => exact absurd ht (cut_ne_nil sep 0 t)
      | cons p ps =>
        rw [ht] at hq
        rcases List.mem_cons.1 hq with rfl | hq
        · exact (ih ht).1
        · exact (ih ht).2 q hq
    · rw [cut_cons hc] at h
      cases ht : cut sep (shift d c) t with
      | nil => exact absurd ht (cut_ne_nil sep _ t)
      | cons p' ps' =>
        rw [ht, List.modifyHead_cons] at h
        obtain ⟨rfl, rfl⟩ := List.cons.inj h
        have hw : (c == sep && d == 0) = false := by simpa using hc
        refine ⟨?_, (ih ht).2⟩
        rw [isWhole, hw, (ih ht).1]
        rfl

theorem isWhole_of_mem_cut {t p : Text} (h : p ∈ cut sep 0 t) : isWhole sep 0 p := by
  cases ht : cut sep 0 t with
  | nil => exact absurd ht (cut_ne_nil sep 0 t)
  | cons q qs =>
    rw [ht] at h
    rcases List.mem_cons.1 h with rfl | h
    · exact (isWhole_of_cut_eq ht).1
    · exact (isWhole_of_cut_eq ht).2 p h

/-- Where the first two pieces of a text come from. -/
theorem eq_of_cut_eq_cons_cons {d : Nat} {t p q : Text} {ps : List Text}
    (h : cut sep d t = p :: q :: ps) :
    ∃ r, t = p ++ sep :: r ∧ depthAfter d p = 0 ∧ cut sep 0 r = q :: ps := by
  induction t generalizing d p with
  | nil => simp [cut] at h
  | cons c t ih =>
    by_cases hc : c = sep ∧ d = 0
    · obtain ⟨rfl, rfl⟩ := hc
      rw [cut, if_pos ⟨rfl, rfl⟩] at h
      obtain ⟨rfl, ht⟩ := List.cons.inj h
      exact ⟨t, rfl, rfl, ht⟩
    · rw [cut_cons hc] at h
      cases ht : cut sep (shift d c) t with
      | nil => exact absurd ht (cut_ne_nil sep _ t)
      | cons p' ps' =>
        rw [ht, List.modifyHead_cons] at h
        obtain ⟨rfl, rfl⟩ := List.cons.inj h
        obtain ⟨r, rfl, hd, hr⟩ := ih ht
        exact ⟨r, rfl, hd, hr⟩

/-- Where the two pieces of a text come from that has no others. -/
theorem eq_of_cut_eq_pair {d : Nat} {t p q : Text} (h : cut sep d t = [p, q]) :
    t = p ++ sep :: q ∧ isWhole sep d p ∧ depthAfter d p = 0 ∧ isWhole sep 0 q := by
  obtain ⟨hp, hq⟩ := isWhole_of_cut_eq h
  obtain ⟨r, rfl, hd, hr⟩ := eq_of_cut_eq_cons_cons h
  obtain rfl : r = q := by rw [← joined_cut sep 0 r, hr, joined]
  exact ⟨rfl, hp, hd, hq r (List.mem_singleton_self r)⟩

/-- Every piece but the last leaves nothing open. -/
theorem pairwise_cut (t : Text) : (cut sep 0 t).Pairwise fun p _ => depthAfter 0 p = 0 := by
  generalize h : cut sep 0 t = ps
  induction ps generalizing t with
  | nil => exact .nil
  | cons p ps ih =>
    cases ps with
    | nil => exact List.pairwise_singleton _ p
    | cons q ps =>
      obtain ⟨r, -, hd, hr⟩ := eq_of_cut_eq_cons_cons h
      exact .cons (fun _ _ => hd) (ih r hr)

/-- Whole pieces of which all but the last leave nothing open are cut apart again. -/
theorem cut_joined (hsep : shift 0 sep = 0) {ps : List Text} (hne : ps ≠ [])
    (whole : ∀ p ∈ ps, isWhole sep 0 p) (closed : ps.Pairwise fun p _ => depthAfter 0 p = 0) :
    cut sep 0 (joined [sep] ps) = ps := by
  induction ps with
  | nil => exact absurd rfl hne
  | cons p ps ih =>
    obtain ⟨hp, hps⟩ := List.forall_mem_cons.1 whole
    obtain ⟨hclosed, hrest⟩ := List.pairwise_cons.1 closed
    cases ps with
    | nil => exact cut_eq_singleton_iff.2 hp
    | cons q ps =>
      have hd : depthAfter 0 p = 0 := hclosed q List.mem_cons_self
      have hq := ih (List.cons_ne_nil q ps) hps hrest
      rw [joined, List.append_assoc, List.singleton_append, cut_append_cons hsep hd,
        cut_eq_singleton_iff.2 hp, hq, List.singleton_append]

/-- A character at the end that is no separator belongs to the last piece. -/
theorem cut_concat {c : Char} (hc : c ≠ sep) (d : Nat) (t : Text) :
    ∃ ps p, cut sep d t = ps ++ [p] ∧ cut sep d (t ++ [c]) = ps ++ [p ++ [c]] := by
  induction t generalizing d with
  | nil => exact ⟨[], [], rfl, by simp [cut, hc]⟩
  | cons e t ih =>
    by_cases he : e = sep ∧ d = 0
    · obtain ⟨ps, p, ht, htc⟩ := ih 0
      refine ⟨[] :: ps, p, ?_, ?_⟩
      · rw [cut, if_pos he, ht, List.cons_append]
      · rw [List.cons_append, cut, if_pos he, htc, List.cons_append]
    · obtain ⟨ps, p, ht, htc⟩ := ih (shift d e)
      rw [List.cons_append, cut_cons he, cut_cons he, ht, htc]
      cases ps with
      | nil => exact ⟨[], e :: p, rfl, rfl⟩
      | cons q qs => exact ⟨(e :: q) :: qs, p, rfl, rfl⟩

/-! ## Cuts and blanks -/

theorem isWhole_trim {t : Text} (h : isWhole sep 0 t) : isWhole sep 0 (trim t) := by
  obtain ⟨l, r, ht, hl, -⟩ := exists_blanks t
  rw [ht, isWhole_append, isWhole_append, Bool.and_eq_true, Bool.and_eq_true,
    depthAfter_of_blank hl] at h
  exact h.1.2

theorem depthAfter_trim (d : Nat) (t : Text) : depthAfter d (trim t) = depthAfter d t := by
  obtain ⟨l, r, ht, hl, hr⟩ := exists_blanks t
  conv => rhs; rw [ht]
  rw [depthAfter_append, depthAfter_append, depthAfter_of_blank hl, depthAfter_of_blank hr]

/-- A blank at the head changes no piece but for the blank. -/
theorem map_trim_cut_cons {c : Char} (hc : isBlank c) (hsep : isBlank sep = false) (d : Nat)
    (t : Text) : (cut sep d (c :: t)).map trim = (cut sep d t).map trim := by
  have hne : ¬ (c = sep ∧ d = 0) := by
    rintro ⟨rfl, -⟩
    simp [hc] at hsep
  rw [cut_cons hne, shift_of_blank hc]
  cases cut sep d t with
  | nil => rfl
  | cons p ps => simp [trim_cons_of_blank hc]

/-- A blank at the end changes no piece but for the blank. -/
theorem map_trim_cut_concat {c : Char} (hc : isBlank c) (hsep : isBlank sep = false) (d : Nat)
    (t : Text) : (cut sep d (t ++ [c])).map trim = (cut sep d t).map trim := by
  have hne : c ≠ sep := by
    rintro rfl
    simp [hc] at hsep
  obtain ⟨ps, p, ht, htc⟩ := cut_concat hne d t
  rw [ht, htc, List.map_append, List.map_append, List.map_singleton, List.map_singleton,
    trim_concat_of_blank hc]

/-- Blanks at the ends of a text change no piece but for the blanks. -/
theorem map_trim_cut_trim (hsep : isBlank sep = false) (t : Text) :
    (cut sep 0 (trim t)).map trim = (cut sep 0 t).map trim := by
  obtain ⟨l, r, ht, hl, hr⟩ := exists_blanks t
  have left : ∀ u, (cut sep 0 (l ++ u)).map trim = (cut sep 0 u).map trim := by
    intro u
    clear ht
    induction l with
    | nil => rfl
    | cons c l ih =>
      obtain ⟨hc, hl⟩ := List.forall_mem_cons.1 hl
      rw [List.cons_append, map_trim_cut_cons hc hsep, ih hl]
  have right : ∀ u, (cut sep 0 (u ++ r)).map trim = (cut sep 0 u).map trim := by
    intro u
    clear ht
    induction r generalizing u with
    | nil => rw [List.append_nil]
    | cons c r ih =>
      obtain ⟨hc, hr⟩ := List.forall_mem_cons.1 hr
      rw [List.append_cons, ih hr, map_trim_cut_concat hc hsep]
  conv => rhs; rw [ht]
  rw [right, left]

end Inspector.Group
