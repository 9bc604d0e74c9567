import Inspector.Proofs.Group

/-!
# Values that one group encloses

The openers of a text less its closers, as a whole number, say how deep the text leaves off. A value
is stripped of its outer brackets just if they are of one kind and the depth is positive behind each
character but the last; what is open at the end is not asked for. So a value is a group in the full
sense, with nothing left open, just if it is stripped and what is inside leaves nothing open.

    staysOpen d t ↔ the depth d + balance p is positive for all starts p of t        (staysOpen_iff)
    strip? v = some t ↔ Spans (trim v) t                                          (strip?_iff_spans)
    Wraps v t ↔ Spans v t ∧ balance t = 0                                          (wraps_iff_spans)
    strip? "(a[b)" = some "a[b", and "(a[b)" leaves a bracket open        (group_left_open_stripped)
-/

namespace Inspector.Group

open Text

/-! ## Depth as a balance -/

/-- The openers of a text less its closers. -/
def balance (t : Text) : Int := (t.countP isOpener : Int) - t.countP isCloser

/-- An opener, `inner` and the closer of its kind, and a positive depth behind every character but
the last. -/
structure Spans (value inner : Text) : Prop where
  brackets : ∃ o c, closerOf? o = some c ∧ value = o :: inner ++ [c]
  positive : ∀ k, 0 < k → k < value.length → 0 < balance (value.take k)

/-- The last character closes the first one: the depth is zero behind it and not before. -/
structure Wraps (value inner : Text) : Prop extends Spans value inner where
  closed : balance value = 0

/-- A name in any case, blanks, and a group of the given shape. -/
def Named (shape : Text → Text → Prop) (name value inner : Text) : Prop :=
  ∃ word gap group, value = word ++ gap ++ group ∧ sameWord word name ∧ gap.all isBlank ∧
    shape group inner

@[simp] theorem balance_nil : balance [] = 0 := rfl

theorem balance_append (a b : Text) : balance (a ++ b) = balance a + balance b := by
  simp only [balance, List.countP_append]
  omega

theorem balance_cons (c : Char) (t : Text) : balance (c :: t) = balance [c] + balance t :=
  balance_append [c] t

theorem isCloser_of_isOpener {c : Char} (h : isOpener c) : isCloser c = false := by
  simp only [isOpener, Bool.or_eq_true, decide_eq_true_eq] at h
  rcases h with (rfl | rfl) | rfl <;> rfl

/-- As long as something is open, a closer takes one away. -/
theorem shift_eq_add_balance {d : Nat} (hd : 0 < d) (c : Char) :
    (shift d c : Int) = d + balance [c] := by
  unfold shift
  split
  · next ho =>
    have hc := isCloser_of_isOpener ho
    simp [balance, ho, hc]
  · next ho =>
    split
    · next hc =>
      have hb : balance [c] = -1 := by simp [balance, ho, hc]
      rw [hb]
      omega
    · next hc => simp [balance, ho, hc]

/-- Inside a group the depth that never falls below zero is the balance. -/
theorem staysOpen_iff {d : Nat} (hd : 0 < d) (t : Text) :
    staysOpen d t ↔ ∀ k ≤ t.length, 0 < (d : Int) + balance (t.take k) := by
  induction t generalizing d with
  | nil =>
    constructor
    · intro _ k _
      rw [List.take_nil, balance_nil]
      omega
    · intro _
      rfl
  | cons c t ih =>
    have hshift := shift_eq_add_balance hd c
    rw [staysOpen, Bool.and_eq_true, decide_eq_true_eq]
    constructor
    · rintro ⟨hc, ht⟩ k hk
      cases k with
      | zero =>
        rw [List.take_zero, balance_nil]
        omega
      | succ k =>
        have hlater := (ih hc).1 ht k (by rw [List.length_cons] at hk; omega)
        rw [List.take_succ_cons, balance_cons]
        omega
    · intro h
      have hc : 0 < shift d c := by
        have hfirst := h 1 (by rw [List.length_cons]; omega)
        rw [List.take_succ_cons, List.take_zero] at hfirst
        omega
      refine ⟨hc, (ih hc).2 fun k hk => ?_⟩
      have hlater := h (k + 1) (by rw [List.length_cons]; omega)
      rw [List.take_succ_cons, balance_cons] at hlater
      omega

/-! ## Groups -/

theorem balance_opener {o c : Char} (h : closerOf? o = some c) : balance [o] = 1 := by
  rcases brackets_of_closerOf? h with ⟨rfl, -⟩ | ⟨rfl, -⟩ | ⟨rfl, -⟩ <;> rfl

theorem balance_closer {o c : Char} (h : closerOf? o = some c) : balance [c] = -1 := by
  rcases brackets_of_closerOf? h with ⟨-, rfl⟩ | ⟨-, rfl⟩ | ⟨-, rfl⟩ <;> rfl

/-- Behind the opener, the depth of the whole value is the one that `staysOpen` starts with. -/
theorem spans_iff_staysOpen {o c : Char} (h : closerOf? o = some c) (inner : Text) :
    Spans (o :: inner ++ [c]) inner ↔ staysOpen 1 inner := by
  have start (k : Nat) (hk : k ≤ inner.length) :
      balance ((o :: inner ++ [c]).take (k + 1)) = 1 + balance (inner.take k) := by
    rw [List.cons_append, List.take_succ_cons, List.take_append_of_le_length hk, balance_cons,
      balance_opener h]
  rw [staysOpen_iff Nat.one_pos]
  constructor
  · intro hs k hk
    have hpos := hs.positive (k + 1) (by omega) (by simp; omega)
    rw [start k hk] at hpos
    exact hpos
  · intro hopen
    refine ⟨⟨o, c, h, rfl⟩, fun k hk hlt => ?_⟩
    obtain ⟨k, rfl⟩ : ∃ j, k = j + 1 := ⟨k - 1, by omega⟩
    have hle : k ≤ inner.length := by simp at hlt; omega
    rw [start k hle]
    exact hopen k hle

/-- What is stripped is what a positive depth spans. -/
theorem strip?_iff_spans {value inner : Text} :
    strip? value = some inner ↔ Spans (trim value) inner := by
  constructor
  · intro h
    obtain ⟨o, c, hoc, hopen, hv⟩ := eq_of_strip? h
    rw [hv]
    exact (spans_iff_staysOpen hoc inner).2 hopen
  · intro h
    obtain ⟨o, c, hoc, hv⟩ := h.brackets
    rw [hv, spans_iff_staysOpen hoc] at h
    rw [strip?, hv]
    simp [hoc, h]

/-- A group leaves open what is left open inside. -/
theorem Spans.balance_eq {value inner : Text} (h : Spans value inner) :
    balance value = balance inner := by
  obtain ⟨o, c, hoc, rfl⟩ := h.brackets
  rw [List.cons_append, balance_cons, balance_append, balance_opener hoc, balance_closer hoc]
  omega

theorem wraps_iff_spans {value inner : Text} :
    Wraps value inner ↔ Spans value inner ∧ balance inner = 0 := by
  constructor
  · intro h
    exact ⟨h.toSpans, by rw [← h.balance_eq, h.closed]⟩
  · rintro ⟨h, hinner⟩
    exact ⟨h, by rw [h.balance_eq, hinner]⟩

/-! ## Groups behind a name -/

/-- Blanks before a group do not count. -/
theorem trim_gap_append {gap group inner : Text} (hgap : gap.all isBlank)
    (h : Spans group inner) : trim (gap ++ group) = group := by
  obtain ⟨o, c, hoc, rfl⟩ := h.brackets
  obtain ⟨ho, hc⟩ := not_isBlank_of_closerOf? hoc
  have front : trimLeft gap = [] := by
    rw [trimLeft, List.dropWhile_eq_nil_iff]
    exact List.all_eq_true.1 hgap
  rw [List.cons_append, trim_append_cons ho, front, trimRight_concat hc, List.nil_append]

/-- A trimmed value has no blanks behind the group that it ends in. -/
theorem eq_append_group_of_trim {value front rest inner : Text} (hv : trim value = front ++ rest)
    (h : Spans (trim rest) inner) :
    ∃ gap, rest = gap ++ trim rest ∧ gap.all isBlank := by
  obtain ⟨l, r, hrest, hl, hr⟩ := exists_blanks rest
  obtain ⟨o, c, hoc, hgroup⟩ := h.brackets
  have hc := (not_isBlank_of_closerOf? hoc).2
  have shape : trim value = (front ++ l ++ o :: inner) ++ c :: r := by
    rw [hv, hrest, hgroup]
    simp
  have blank : trimRight r = [] := by
    rw [trimRight, List.reverse_eq_nil_iff, List.dropWhile_eq_nil_iff]
    exact fun d hd => hr d (List.mem_reverse.1 hd)
  have trimmed : (front ++ l ++ o :: inner) ++ c :: r = (front ++ l ++ o :: inner) ++ [c] := by
    rw [← shape, ← trimRight_trim value, shape, trimRight_append_cons hc, blank]
  have hr : r = [] := (List.cons.inj (List.append_cancel_left trimmed)).2
  refine ⟨l, ?_, List.all_eq_true.2 hl⟩
  rw [hr, List.append_nil] at hrest
  exact hrest

theorem stripNamed?_iff_named {name value inner : Text} :
    stripNamed? name value = some inner ↔ Named Spans name (trim value) inner := by
  constructor
  · intro h
    obtain ⟨rest, hrest, hinner⟩ := Option.bind_eq_some_iff.1 h
    obtain ⟨word, hvalue, hword⟩ := eq_append_of_afterWord? hrest
    have hspans := strip?_iff_spans.1 hinner
    obtain ⟨gap, hgap, hblank⟩ := eq_append_group_of_trim hvalue hspans
    refine ⟨word, gap, trim rest, ?_, beq_iff_eq.2 hword, hblank, hspans⟩
    rw [hvalue, List.append_assoc, ← hgap]
  · rintro ⟨word, gap, group, hvalue, hword, hblank, hspans⟩
    have hrest : afterWord? name (trim value) = some (gap ++ group) := by
      rw [hvalue, List.append_assoc]
      exact afterWord?_of_lower (beq_iff_eq.1 hword) _
    rw [stripNamed?, hrest, Option.bind_some, strip?_iff_spans, trim_gap_append hblank hspans]
    exact hspans

theorem named_wraps_iff {name value inner : Text} :
    Named Wraps name value inner ↔ Named Spans name value inner ∧ balance inner = 0 := by
  constructor
  · rintro ⟨word, gap, group, hvalue, hword, hblank, hwraps⟩
    obtain ⟨hspans, hinner⟩ := wraps_iff_spans.1 hwraps
    exact ⟨⟨word, gap, group, hvalue, hword, hblank, hspans⟩, hinner⟩
  · rintro ⟨⟨word, gap, group, hvalue, hword, hblank, hspans⟩, hinner⟩
    exact ⟨word, gap, group, hvalue, hword, hblank, wraps_iff_spans.2 ⟨hspans, hinner⟩⟩

/-! ## What is stripped -/

/-- A value, and a value behind a name, is stripped just if its brackets are of one kind and not
closed before its end. It wraps what is inside in the full sense just if it is stripped and nothing
inside is left open. -/
theorem stripped_iff_not_closed_early (name value inner : Text) :
    (strip? value = some inner ↔ Spans (trim value) inner) ∧
    (Wraps (trim value) inner ↔ strip? value = some inner ∧ balance inner = 0) ∧
    (stripNamed? name value = some inner ↔ Named Spans name (trim value) inner) ∧
    (Named Wraps name (trim value) inner ↔
      stripNamed? name value = some inner ∧ balance inner = 0) := by
  refine ⟨strip?_iff_spans, ?_, stripNamed?_iff_named, ?_⟩
  · rw [wraps_iff_spans, strip?_iff_spans]
  · rw [named_wraps_iff, stripNamed?_iff_named]

/-- An inner bracket is left open here, and the outer ones are stripped all the same. -/
theorem group_left_open_stripped :
    (strip? "(a[b)" = some "a[b".toList ∧ ¬ Wraps (trim "(a[b)") "a[b") ∧
    stripNamed? "Auto" "Auto(a[b)" = some "a[b".toList ∧
      ¬ Named Wraps "Auto" (trim "Auto(a[b)") "a[b" := by
  have inside : balance "a[b" ≠ 0 := by decide
  refine ⟨⟨by decide, fun h => ?_⟩, by decide, fun h => ?_⟩
  · exact inside (wraps_iff_spans.1 h).2
  · exact inside (named_wraps_iff.1 h).2

end Inspector.Group
