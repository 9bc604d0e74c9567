import Inspector.Proofs.Offset
import Inspector.Proofs.Token.Stream

/-!
# Tokens cut at offsets

A stream that keeps an offset instead of the text it has not read yet: each pass cuts one segment
out of the rest and steps over the comma behind it, so that a pass over the last segment steps one
beyond the end. A segment is cut in two at the offset of its `=`. The offset and the unread text
belong together (`Stands`); a pass keeps them so, and no cut on the way is a fault.

    ofSegment s = .ok (Token.ofSegment s)                                           (ofSegment_eq)
    Stands s p (c :: r) → pass s p goes through and Stands behind the segment            (pass_eq)
    Stands s p rest → next s p gives the token of Token.next rest                        (next_eq)
    Stands s p rest → isBoundary s p ∨ p = octetCount s + 1                   (Stands.isBoundary)
    Reached s p → ∃ rest, Stands s p rest                                         (Reached.stands)
-/

namespace Inspector.Offset

open Text Inspector.Group

/-! ## Algorithm -/

/-- The offset of the first comma outside groups, or `stop` if there is none. -/
def segmentEnd (stop depth : Nat) : List (Nat × Char) → Nat
  | [] => stop
  | (i, c) :: r => if c = ',' ∧ depth = 0 then i else segmentEnd stop (shift depth c) r

/-- What a scan for `=` outside groups has seen: the depth, the first offset, how many there are. -/
structure Marks where
  depth : Nat := 0
  first : Option Nat := none
  count : Nat := 0

def Marks.scan (m : Marks) (p : Nat × Char) : Marks :=
  if p.2 = '=' ∧ m.depth = 0 then
    { m with first := m.first.or (some p.1), count := m.count + 1 }
  else { m with depth := shift m.depth p.2 }

def marks (segment : Text) : Marks := (offsets 0 segment).foldl Marks.scan {}

/-- The token of a segment: cut in two at the first `=` if that is the only one. -/
def ofSegment (segment : Text) : Except Fault Token :=
  match (marks segment).first with
  | none => .ok (.bare segment)
  | some i =>
    if (marks segment).count = 1 then do
      let key ← slice segment 0 i
      let value ← slice segment (i + 1) (octetCount segment)
      return .pair (trim key) (trim value)
    else .ok (.bare segment)

/-- The segment at an offset: its token, if it is not blank, and the offset behind its comma. -/
def pass (s : Text) (p : Nat) : Except Fault (Option Token × Nat) := do
  let rest ← slice s p (octetCount s)
  let stop := segmentEnd (octetCount rest) 0 (offsets 0 rest)
  let segment ← slice rest 0 stop
  match trim segment with
  | [] => return (none, p + stop + 1)
  | c :: t => do
    let token ← ofSegment (c :: t)
    return (some token, p + stop + 1)

theorem lt_of_pass {s : Text} {p q : Nat} {t : Option Token} (h : pass s p = .ok (t, q)) :
    p < q := by
  unfold pass at h
  simp only [bind, Except.bind] at h
  split at h
  · cases h
  · split at h
    · cases h
    · split at h
      · cases h
        omega
      · split at h
        · cases h
        · cases h
          omega

/-- The next token at or behind an offset, and the offset behind it. -/
def next (s : Text) (p : Nat) : Except Fault (Option Token × Nat) :=
  if p < octetCount s then
    match _ : pass s p with
    | .error fault => .error fault
    | .ok (some token, q) => .ok (some token, q)
    | .ok (none, q) => next s q
  else .ok (none, p)
termination_by octetCount s - p
decreasing_by
  have := lt_of_pass (by assumption)
  omega

/-- The results of `n` reads in a row, and the offset they end at. -/
def reads (s : Text) (p : Nat) : Nat → Except Fault (List (Option Token) × Nat)
  | 0 => .ok ([], p)
  | n + 1 => do
    let (token, q) ← next s p
    let (tokens, r) ← reads s q n
    return (token :: tokens, r)

/-- Every offset that a stream comes by, within its reads as well as between them. -/
inductive Reached (s : Text) : Nat → Prop where
  | start : Reached s 0
  | pass {p q : Nat} {t : Option Token} (before : Reached s p) (more : p < octetCount s)
      (step : pass s p = .ok (t, q)) : Reached s q

/-! ## Segments -/

theorem segmentEnd_eq (n d : Nat) (t : Text) :
    segmentEnd (n + octetCount t) d (offsets n t) = n + octetCount (Token.segment d t).1 := by
  induction t generalizing n d with
  | nil => rfl
  | cons c t ih =>
    rw [offsets, segmentEnd, Token.segment]
    split
    · rfl
    · rw [octetCount_cons, octetCount_cons, ← Nat.add_assoc, ih, Nat.add_assoc]

/-- A text is its first segment, or goes on behind a comma. -/
theorem eq_segment (d : Nat) (t : Text) :
    t = (Token.segment d t).1 ∧ (Token.segment d t).2 = [] ∨
      t = (Token.segment d t).1 ++ ',' :: (Token.segment d t).2 := by
  induction t generalizing d with
  | nil => exact .inl ⟨rfl, rfl⟩
  | cons c t ih =>
    rw [Token.segment]
    split
    · next hc => exact .inr (by rw [hc.1, List.nil_append])
    · rcases ih (shift d c) with ⟨ht, hr⟩ | ht
      · exact .inl ⟨congrArg (c :: ·) ht, hr⟩
      · exact .inr (congrArg (c :: ·) ht)

/-- The cut at the end of the first segment. -/
theorem slice_segment (t : Text) :
    slice t 0 (octetCount (Token.segment 0 t).1) = .ok (Token.segment 0 t).1 := by
  obtain ⟨rest, ht⟩ : ∃ rest, t = (Token.segment 0 t).1 ++ rest := by
    rcases eq_segment 0 t with ⟨ht, -⟩ | ht
    · exact ⟨[], by rwa [List.append_nil]⟩
    · exact ⟨_, ht⟩
  have front := slice_front (Token.segment 0 t).1 rest
  rwa [← ht] at front

theorem scan_whole (n : Nat) (m : Marks) {t : Text} (h : isWhole '=' m.depth t) :
    (offsets n t).foldl Marks.scan m = { m with depth := depthAfter m.depth t } := by
  induction t generalizing n m with
  | nil => rfl
  | cons c t ih =>
    obtain ⟨hc, ht⟩ := Bool.and_eq_true_iff.1 h
    have other : ¬ (c = '=' ∧ m.depth = 0) := not_and_or.2 (by simpa using hc)
    rw [offsets, List.foldl_cons, Marks.scan, if_neg other, ih _ _ ht]
    rfl

theorem count_scan (n : Nat) (m : Marks) (t : Text) :
    ((offsets n t).foldl Marks.scan m).count =
      m.count + (levels m.depth t).countP (isCut '=') := by
  induction t generalizing n m with
  | nil => rfl
  | cons c t ih =>
    rw [offsets, List.foldl_cons, ih, levels, List.countP_cons, Marks.scan]
    by_cases hc : c = '=' ∧ m.depth = 0
    · obtain ⟨rfl, hd⟩ := hc
      have level : shift m.depth '=' = m.depth := rfl
      rw [if_pos ⟨rfl, hd⟩, if_pos (isCut_iff.2 ⟨rfl, hd⟩), level]
      dsimp only
      omega
    · rw [if_neg hc, if_neg (fun h => hc (isCut_iff.1 h))]
      rfl

/-- A segment with one `=` outside groups has its mark there. -/
theorem marks_pair {k v : Text} (hk : isWhole '=' 0 k) (hd : depthAfter 0 k = 0)
    (hv : isWhole '=' 0 v) :
    (marks (k ++ '=' :: v)).first = some (octetCount k) ∧ (marks (k ++ '=' :: v)).count = 1 := by
  have key : (offsets 0 k).foldl Marks.scan {} = {} := by
    rw [scan_whole 0 {} hk]
    exact congrArg (Marks.mk · none 0) hd
  have sign : Marks.scan {} (0 + octetCount k, '=') =
      { first := some (octetCount k), count := 1 } := by
    rw [Nat.zero_add]
    rfl
  rw [marks, offsets_append, List.foldl_append, key, offsets, List.foldl_cons, sign,
    scan_whole _ _ hv]
  exact ⟨rfl, rfl⟩

theorem ofSegment_eq (s : Text) : ofSegment s = .ok (Token.ofSegment s) := by
  unfold Token.ofSegment
  split
  · next k v h =>
    obtain ⟨rfl, hk, hd, hv⟩ := eq_of_cut_eq_pair h
    obtain ⟨first, count⟩ := marks_pair hk hd hv
    have key : slice (k ++ '=' :: v) 0 (octetCount k) = .ok k := slice_front k ('=' :: v)
    have value : slice (k ++ '=' :: v) (octetCount k + 1) (octetCount (k ++ '=' :: v)) = .ok v := by
      have back := slice_back (k ++ ['=']) v
      rwa [List.append_assoc, octetCount_append k ['=']] at back
    unfold ofSegment
    rw [first]
    dsimp only
    rw [if_pos count, key, value]
    rfl
  · next h =>
    have several : (marks s).count ≠ 1 := by
      intro one
      have pieces : (cut '=' 0 s).length = (levels 0 s).countP (isCut '=') + 1 :=
        length_cut (by decide) 0 s
      have counted : (marks s).count = 0 + (levels 0 s).countP (isCut '=') := count_scan 0 {} s
      have two : (cut '=' 0 s).length = 2 := by omega
      obtain ⟨k, v, hkv⟩ := List.length_eq_two.1 two
      exact h k v hkv
    unfold ofSegment
    split
    · rfl
    · rw [if_neg several]

/-! ## Streams -/

/-- An offset and the text not read yet, which begins there. A stream that has read its last segment
stands one beyond the end. -/
inductive Stands (s : Text) : Nat → Text → Prop where
  | within {a rest : Text} (h : s = a ++ rest) : Stands s (octetCount a) rest
  | beyond : Stands s (octetCount s + 1) []

variable {s rest : Text} {p : Nat}

theorem Stands.isBoundary (h : Stands s p rest) : isBoundary s p ∨ p = octetCount s + 1 := by
  cases h with
  | within h => exact .inl (isBoundary_iff.2 ⟨_, _, h, rfl⟩)
  | beyond => exact .inr rfl

theorem Stands.lt_iff (h : Stands s p rest) : p < octetCount s ↔ rest ≠ [] := by
  cases h with
  | @within a _ h =>
    subst h
    rw [octetCount_append]
    cases rest with
    | nil => simp
    | cons c r =>
      have := c.utf8Size_pos
      simp
      omega
  | beyond => simp

/-- Behind the first segment of the text not read yet, and behind its comma or the end. -/
theorem Stands.behind_segment (h : Stands s p rest) (hrest : rest ≠ []) :
    Stands s (p + octetCount (Token.segment 0 rest).1 + 1) (Token.segment 0 rest).2 := by
  cases h with
  | beyond => exact absurd rfl hrest
  | @within a _ h =>
    rcases eq_segment 0 rest with ⟨whole, done⟩ | more
    · rw [done, ← whole, ← octetCount_append, ← h]
      exact .beyond
    · have read : s = (a ++ (Token.segment 0 rest).1 ++ [',']) ++ (Token.segment 0 rest).2 := by
        rw [List.append_assoc, List.append_assoc, List.singleton_append, ← more, h]
      have count : octetCount (a ++ (Token.segment 0 rest).1 ++ [',']) =
          octetCount a + octetCount (Token.segment 0 rest).1 + 1 := by
        rw [octetCount_append, octetCount_append]
        rfl
      exact count ▸ .within read

/-- The token of a segment that is not blank. -/
def tokenIn (segment : Text) : Option Token :=
  match trim segment with
  | [] => none
  | c :: t => some (Token.ofSegment (c :: t))

/-- A pass takes the first segment of the text not read yet, and no cut of it is a fault. -/
theorem pass_eq (h : Stands s p rest) (hrest : rest ≠ []) :
    pass s p = .ok (tokenIn (Token.segment 0 rest).1,
      p + octetCount (Token.segment 0 rest).1 + 1) := by
  have unread : slice s p (octetCount s) = .ok rest := by
    cases h with
    | beyond => exact absurd rfl hrest
    | @within a _ h => exact h ▸ slice_back a rest
  have stop : segmentEnd (octetCount rest) 0 (offsets 0 rest) =
      octetCount (Token.segment 0 rest).1 := by
    have found := segmentEnd_eq 0 0 rest
    rwa [Nat.zero_add, Nat.zero_add] at found
  rw [pass, unread]
  simp only [bind, Except.bind, stop, slice_segment]
  unfold tokenIn
  cases trim (Token.segment 0 rest).1 with
  | nil => rfl
  | cons c t =>
    dsimp only
    rw [ofSegment_eq]
    rfl

/-- A read goes on behind a blank segment. -/
theorem next_of_blank {q : Nat} (more : p < octetCount s) (step : pass s p = .ok (none, q)) :
    next s p = next s q := by
  rw [next, if_pos more]
  split
  · next he => cases step.symm.trans he
  · next he => cases step.symm.trans he
  · next he =>
    cases step.symm.trans he
    rfl

/-- A read is over where a pass gives a token. -/
theorem next_of_token {q : Nat} {token : Token} (more : p < octetCount s)
    (step : pass s p = .ok (some token, q)) : next s p = .ok (some token, q) := by
  rw [next, if_pos more]
  split
  · next he => cases step.symm.trans he
  · next he =>
    cases step.symm.trans he
    rfl
  · next he => cases step.symm.trans he

/-- A read gives the token that the text not read yet begins with. -/
theorem next_eq (h : Stands s p rest) :
    ∃ q, next s p = .ok ((Token.next rest).1, q) ∧ Stands s q (Token.next rest).2 := by
  induction rest using Token.next.induct generalizing p with
  | case1 =>
    have done : ¬ p < octetCount s := fun hlt => h.lt_iff.1 hlt rfl
    rw [next, if_neg done, Token.next]
    exact ⟨p, rfl, h⟩
  | case2 c r blank ih =>
    have more := h.lt_iff.2 (List.cons_ne_nil c r)
    have step := pass_eq h (List.cons_ne_nil c r)
    obtain ⟨q, later, behind⟩ := ih (h.behind_segment (List.cons_ne_nil c r))
    rw [tokenIn, blank] at step
    rw [Token.next, blank]
    exact ⟨q, (next_of_blank more step).trans later, behind⟩
  | case3 c r a t first =>
    have more := h.lt_iff.2 (List.cons_ne_nil c r)
    have step := pass_eq h (List.cons_ne_nil c r)
    have behind := h.behind_segment (List.cons_ne_nil c r)
    rw [tokenIn, first] at step
    rw [Token.next, first]
    exact ⟨_, next_of_token more step, behind⟩

theorem stands_zero (s : Text) : Stands s 0 s := .within (a := []) rfl

/-- Wherever a stream comes by, some text is left to read there, be it none. -/
theorem Reached.stands (h : Reached s p) : ∃ rest, Stands s p rest := by
  induction h with
  | start => exact ⟨s, stands_zero s⟩
  | pass _ more step ih =>
    obtain ⟨rest, stands⟩ := ih
    have unread := stands.lt_iff.1 more
    cases step.symm.trans (pass_eq stands unread)
    exact ⟨_, stands.behind_segment unread⟩

/-- The passes of a read lead from one offset of the stream to another. -/
theorem Reached.of_next {q : Nat} {t : Option Token} (h : Reached s p)
    (read : next s p = .ok (t, q)) : Reached s q := by
  fun_induction next s p with
  | case1 p more fault step => cases read
  | case2 p more token r step =>
    cases read
    exact h.pass more step
  | case3 p more r step ih => exact ih (h.pass more step) read
  | case4 p done =>
    cases read
    exact h

/-- Reads in a row give the tokens of the text, and end at an offset that the stream comes by. -/
theorem reads_eq (reached : Reached s p) (stands : Stands s p rest) (n : Nat) :
    ∃ q, reads s p n = .ok (Token.reads rest n, q) ∧ Reached s q := by
  induction n generalizing p rest with
  | zero => exact ⟨p, rfl, reached⟩
  | succ n ih =>
    obtain ⟨q, first, behind⟩ := next_eq stands
    obtain ⟨r, others, last⟩ := ih (reached.of_next first) behind
    refine ⟨r, ?_, last⟩
    rw [reads, first]
    simp only [bind, Except.bind]
    rw [others]
    rfl

end Inspector.Offset
