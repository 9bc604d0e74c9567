import Inspector.Proofs.Token
import Inspector.Token.Stream

/-!
# One pass over a property string

The depth of a property string can be counted once, from its head to its end, instead of afresh for
each segment: a comma at depth zero leaves the counter at zero. The tokens are those between the
commas that the one count finds at depth zero, and a stream gives them one by one.

    (levels d t)[i]? = t[i]?.map fun c => (c, depthAfter d (t.take i))          (getElem?_levels)
    cut sep d t = the texts between the cuts that the levels of t show        (cut_eq_splitOnP)
    (cut sep d t).length = the number of these cuts + 1                              (length_cut)
    (next s).1 = (tokenize s).head? and tokenize (next s).2 = (tokenize s).tail       (next_eq)
-/

namespace Inspector

open Text Inspector.Group

/-! ## Algorithm -/

namespace Group

/-- The characters of a text, each with the depth before it. -/
def levels (depth : Nat) : Text → List (Char × Nat)
  | [] => []
  | c :: r => (c, depth) :: levels (shift depth c) r

/-- A separator where nothing is open. -/
def isCut (sep : Char) (p : Char × Nat) : Bool := p.1 == sep && p.2 == 0

end Group

/-- The token of a piece: a pair if it has exactly one `=` where nothing is open. -/
def Token.ofPiece (piece : Text) : Token :=
  let marks := levels 0 piece
  let i := marks.findIdx (isCut '=')
  if marks.countP (isCut '=') = 1 then .pair (trim (piece.take i)) (trim (piece.drop (i + 1)))
  else .bare piece

/-- The tokens of a property string whose depth is counted once. -/
def onePass (s : Text) : List Token :=
  let pieces := (levels 0 s).splitOnP (isCut ',')
  ((pieces.map fun p => trim (p.map Prod.fst)).filter (!·.isEmpty)).map Token.ofPiece

/-! ## Lemmas -/

namespace Group

variable {sep : Char}

/-- The level of a character is the depth after all that stands before it. -/
theorem getElem?_levels (d : Nat) (t : Text) (i : Nat) :
    (levels d t)[i]? = t[i]?.map fun c => (c, depthAfter d (t.take i)) := by
  induction t generalizing d i with
  | nil => simp [levels]
  | cons c t ih =>
    cases i with
    | zero => rfl
    | succ i => simpa [levels] using ih (shift d c) i

theorem length_levels (d : Nat) (t : Text) : (levels d t).length = t.length := by
  induction t generalizing d with
  | nil => rfl
  | cons c t ih => rw [levels, List.length_cons, ih, List.length_cons]

theorem levels_append (d : Nat) (a b : Text) :
    levels d (a ++ b) = levels d a ++ levels (depthAfter d a) b := by
  induction a generalizing d with
  | nil => rfl
  | cons c a ih => rw [List.cons_append, levels, ih, levels, List.cons_append, depthAfter_cons]

theorem isCut_iff {c : Char} {d : Nat} : isCut sep (c, d) ↔ c = sep ∧ d = 0 := by
  simp [isCut]

theorem isWhole_iff_levels {d : Nat} {t : Text} :
    isWhole sep d t ↔ ∀ p ∈ levels d t, isCut sep p = false := by
  induction t generalizing d with
  | nil => simp [isWhole, levels]
  | cons c t ih =>
    rw [isWhole, levels, List.forall_mem_cons, ← ih, Bool.and_eq_true, Bool.not_eq_true']
    rfl

/-- The cuts found piece by piece are those found in one pass. -/
theorem cut_eq_splitOnP (hsep : shift 0 sep = 0) (d : Nat) (t : Text) :
    cut sep d t = ((levels d t).splitOnP (isCut sep)).map (·.map Prod.fst) := by
  induction t generalizing d with
  | nil => rfl
  | cons c t ih =>
    rw [levels, List.splitOnP_cons_eq_if_modifyHead]
    by_cases hc : c = sep ∧ d = 0
    · obtain ⟨rfl, rfl⟩ := hc
      rw [cut, if_pos ⟨rfl, rfl⟩, if_pos (isCut_iff.2 ⟨rfl, rfl⟩), hsep, ih]
      rfl
    · rw [cut_cons hc, if_neg (fun h => hc (isCut_iff.1 h)), ih]
      cases (levels (shift d c) t).splitOnP (isCut sep) <;> rfl

theorem length_cut (hsep : shift 0 sep = 0) (d : Nat) (t : Text) :
    (cut sep d t).length = (levels d t).countP (isCut sep) + 1 := by
  induction t generalizing d with
  | nil => rfl
  | cons c t ih =>
    rw [levels]
    by_cases hc : c = sep ∧ d = 0
    · obtain ⟨rfl, rfl⟩ := hc
      rw [cut, if_pos ⟨rfl, rfl⟩, List.countP_cons_of_pos (isCut_iff.2 ⟨rfl, rfl⟩), hsep,
        List.length_cons, ih]
    · rw [cut_cons hc, List.countP_cons_of_neg (fun h => hc (isCut_iff.1 h)), List.length_modifyHead,
        ih]

/-- The first cut is behind the first piece. -/
theorem findIdx_levels {k : Text} (hk : isWhole sep 0 k) (hd : depthAfter 0 k = 0) (v : Text) :
    (levels 0 (k ++ sep :: v)).findIdx (isCut sep) = k.length := by
  have before : (levels 0 k).findIdx (isCut sep) = (levels 0 k).length :=
    List.findIdx_eq_length.2 (isWhole_iff_levels.1 hk)
  have here : isCut sep (sep, 0) := isCut_iff.2 ⟨rfl, rfl⟩
  rw [levels_append, hd, levels, List.findIdx_append, before, if_neg (Nat.lt_irrefl _),
    List.findIdx_cons, here, length_levels]
  exact Nat.zero_add _

end Group

theorem Token.ofSegment_eq_ofPiece (p : Text) : ofSegment p = ofPiece p := by
  have count : (cut '=' 0 p).length = (levels 0 p).countP (isCut '=') + 1 :=
    length_cut (by decide) 0 p
  unfold ofSegment ofPiece
  dsimp only
  split
  · next k v h =>
    obtain ⟨hp, hk, hd, -⟩ := eq_of_cut_eq_pair h
    have one : (levels 0 p).countP (isCut '=') = 1 := by
      rw [h] at count
      simpa using count.symm
    have place : (levels 0 p).findIdx (isCut '=') = k.length := by
      rw [hp]
      exact findIdx_levels hk hd v
    rw [if_pos one, place, hp, List.take_left, List.drop_length_add_append]
    rfl
  · next h =>
    rw [if_neg]
    intro one
    rw [one] at count
    obtain ⟨k, v, hkv⟩ := List.length_eq_two.1 count
    exact h k v hkv

theorem tokenize_eq_onePass (s : Text) : tokenize s = onePass s := by
  have tokens : Token.ofSegment = Token.ofPiece := funext Token.ofSegment_eq_ofPiece
  rw [tokenize, cut_eq_splitOnP (by decide), List.map_map, tokens]
  rfl

/-! ## Streams -/

namespace Token

/-- A text is its first segment, alone or before the pieces of the rest. -/
theorem cut_eq_segment (d : Nat) (t : Text) :
    cut ',' d t = [(segment d t).1] ∧ (segment d t).2 = [] ∨
      cut ',' d t = (segment d t).1 :: cut ',' 0 (segment d t).2 := by
  induction t generalizing d with
  | nil => exact .inl ⟨rfl, rfl⟩
  | cons c t ih =>
    by_cases hc : c = ',' ∧ d = 0
    · rw [cut, segment, if_pos hc, if_pos hc]
      exact .inr rfl
    · rw [cut_cons hc, segment, if_neg hc]
      rcases ih (shift d c) with ⟨h, hr⟩ | h
      · exact .inl ⟨by rw [h, List.modifyHead_cons], hr⟩
      · exact .inr (by rw [h, List.modifyHead_cons])

theorem tokenize_eq_segment (s : Text) : tokenize s =
    ([trim (segment 0 s).1].filter (!·.isEmpty)).map ofSegment ++ tokenize (segment 0 s).2 := by
  rcases cut_eq_segment 0 s with ⟨h, hr⟩ | h
  · rw [hr, tokenize_nil, List.append_nil, tokenize, h]
    rfl
  · rw [tokenize, h, List.map_cons, ← List.singleton_append, List.filter_append, List.map_append]
    rfl

/-- A read takes the first token and leaves the others. -/
theorem next_eq (s : Text) :
    (next s).1 = (tokenize s).head? ∧ tokenize (next s).2 = (tokenize s).tail := by
  induction s using next.induct with
  | case1 => rw [next]; exact ⟨rfl, rfl⟩
  | case2 c r hblank ih =>
    have same : tokenize (c :: r) = tokenize (segment 0 (c :: r)).2 := by
      rw [tokenize_eq_segment, hblank]
      rfl
    rw [next, hblank, same]
    exact ih
  | case3 c r a seg hseg =>
    have first : tokenize (c :: r) = ofSegment (a :: seg) :: tokenize (segment 0 (c :: r)).2 := by
      rw [tokenize_eq_segment, hseg]
      rfl
    rw [next, hseg, first]
    exact ⟨rfl, rfl⟩

/-- Reads in a row give the tokens in order, and nothing once they are used up. -/
theorem reads_eq (s : Text) (n : Nat) :
    reads s n = (List.range n).map fun i => (tokenize s)[i]? := by
  induction n generalizing s with
  | zero => rfl
  | succ n ih =>
    obtain ⟨first, others⟩ := next_eq s
    have shifted : (fun i => (tokenize s).tail[i]?) = (fun i => (tokenize s)[i]?) ∘ Nat.succ :=
      funext fun i => List.getElem?_tail
    rw [reads, ih, first, others, shifted, List.range_succ_eq_map, List.map_cons, List.map_map,
      List.head?_eq_getElem?]

end Token

/-- The tokens of a text are those of one pass, in which the level of a character is the depth
after all that stands before it. Texts that are joined by a comma at depth zero have the tokens of
both. A stream gives the tokens one by one, and nothing once they are used up. -/
theorem tokens_in_one_pass (s a b : Text) (n : Nat) :
    tokenize s = onePass s ∧
    (∀ i, (levels 0 s)[i]? = s[i]?.map fun c => (c, depthAfter 0 (s.take i))) ∧
    (depthAfter 0 a = 0 → tokenize (a ++ "," ++ b) = tokenize a ++ tokenize b) ∧
    Token.reads s n = (List.range n).map fun i => (tokenize s)[i]? := by
  refine ⟨tokenize_eq_onePass s, getElem?_levels 0 s, fun closed => ?_, Token.reads_eq s n⟩
  rw [List.append_assoc]
  exact tokenize_append closed b

/-- A stray closer opens nothing, and a group that stays open keeps its comma. -/
theorem tokens_around_stray_brackets :
    tokenize "a),b=(c,d" = onePass "a),b=(c,d" ∧
    depthAfter 0 "a)" = 0 ∧
    tokenize ("a)" ++ "," ++ "b=(c,d") = tokenize "a)" ++ tokenize "b=(c,d" ∧
    Token.reads "a),b=(c,d" 3 =
      (List.range 3).map fun i => (tokenize "a),b=(c,d")[i]? := by
  have closed : depthAfter 0 "a)" = 0 := by decide
  obtain ⟨once, -, joined, reads⟩ := tokens_in_one_pass "a),b=(c,d" "a)" "b=(c,d" 3
  exact ⟨once, closed, joined closed, reads⟩

end Inspector
