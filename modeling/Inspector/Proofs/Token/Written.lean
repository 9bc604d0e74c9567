import Inspector.Proofs.Token

/-!
# Tokens written and read again

A token is written as its segment stood, less the blanks around its two sides. Written tokens that
are joined by commas are cut where they were joined: no comma stands at depth zero in any of them,
and none but the last leaves anything open.

    IsSegment p → IsSegment (ofSegment p).written                          (isSegment_written)
    ofSegment (ofSegment p).written = ofSegment p                          (ofSegment_written)
    tokenize (joined "," ((tokenize s).map written)) = tokenize s    (tokenize_joined_written)
-/

namespace Inspector

open Text Inspector.Group

/-- What a token is made from: trimmed, not empty, and without a comma at depth zero. -/
structure IsSegment (p : Text) : Prop where
  trimmed : trim p = p
  nonempty : p ≠ []
  whole : isWhole ',' 0 p

/-- The trimmed pieces of a property string, without the empty ones. -/
def segments (s : Text) : List Text := ((cut ',' 0 s).map trim).filter (!·.isEmpty)

theorem tokenize_eq_map (s : Text) : tokenize s = (segments s).map Token.ofSegment := rfl

theorem isSegment_of_mem {s p : Text} (h : p ∈ segments s) : IsSegment p := by
  obtain ⟨hp, hne⟩ := List.mem_filter.1 h
  obtain ⟨q, hq, rfl⟩ := List.mem_map.1 hp
  exact ⟨trim_trim q, by simpa using hne, isWhole_trim (isWhole_of_mem_cut hq)⟩

/-- An unclosed group is in the last segment, if there is one at all. -/
theorem pairwise_segments (s : Text) : (segments s).Pairwise fun p _ => depthAfter 0 p = 0 := by
  refine List.Pairwise.filter _ (List.pairwise_map.2 ?_)
  refine (pairwise_cut s).imp fun {p _} hp => ?_
  rw [depthAfter_trim, hp]

/-- Segments that are joined by commas are the segments of the whole. -/
theorem segments_joined {ps : List Text} (hps : ∀ p ∈ ps, IsSegment p)
    (closed : ps.Pairwise fun p _ => depthAfter 0 p = 0) : segments (joined "," ps) = ps := by
  by_cases hne : ps = []
  · subst hne
    decide
  · have cuts : cut ',' 0 (joined "," ps) = ps :=
      cut_joined (by decide) hne (fun p hp => (hps p hp).whole) closed
    have trims : ps.map trim = ps :=
      (List.map_congr_left fun p hp => (hps p hp).trimmed).trans (List.map_id ps)
    rw [segments, cuts, trims, List.filter_eq_self]
    intro p hp
    simpa using (hps p hp).nonempty

namespace Token

variable {p : Text}

/-- The token of a segment is bare and the segment itself, or the two sides of its only `=` at
depth zero. -/
theorem ofSegment_cases (p : Text) :
    ofSegment p = .bare p ∨
      ∃ k v, p = k ++ '=' :: v ∧ isWhole '=' 0 k ∧ depthAfter 0 k = 0 ∧ isWhole '=' 0 v ∧
        ofSegment p = .pair (trim k) (trim v) := by
  unfold ofSegment
  split
  · next k v h =>
    obtain ⟨hp, hk, hd, hv⟩ := eq_of_cut_eq_pair h
    exact .inr ⟨k, v, hp, hk, hd, hv, rfl⟩
  · exact .inl rfl

/-- Two sides without an `=` at depth zero, of which the first leaves nothing open, are a pair. -/
theorem ofSegment_pair {k v : Text} (hk : isWhole '=' 0 k) (hd : depthAfter 0 k = 0)
    (hv : isWhole '=' 0 v) : ofSegment (k ++ '=' :: v) = .pair (trim k) (trim v) := by
  have cuts : cut '=' 0 (k ++ '=' :: v) = [k, v] := by
    rw [cut_append_cons (by decide) hd, cut_eq_singleton_iff.2 hk, cut_eq_singleton_iff.2 hv,
      List.singleton_append]
  rw [ofSegment, cuts]

theorem written_pair (key value : Text) : (pair key value).written = key ++ '=' :: value := by
  show key ++ ['='] ++ value = _
  rw [List.append_assoc, List.singleton_append]

/-- A token is written as a segment that leaves open what its own segment does. -/
theorem isSegment_written (h : IsSegment p) :
    IsSegment (ofSegment p).written ∧ depthAfter 0 (ofSegment p).written = depthAfter 0 p := by
  rcases ofSegment_cases p with hp | ⟨k, v, rfl, -, hd, -, hp⟩
  · rw [hp]
    exact ⟨h, rfl⟩
  · rw [hp, written_pair]
    have equals : shift 0 '=' = 0 := by decide
    have whole := h.whole
    rw [isWhole_append, hd, isWhole, equals, Bool.and_eq_true] at whole
    refine ⟨⟨?_, by simp, ?_⟩, ?_⟩
    · rw [trim_append_cons (by decide), trimLeft_trim, trimRight_trim]
    · rw [isWhole_append, depthAfter_trim, hd, isWhole, equals, isWhole_trim whole.1]
      simpa using isWhole_trim whole.2
    · rw [depthAfter_append, depthAfter_append, depthAfter_trim, hd, depthAfter_cons,
        depthAfter_cons, equals, depthAfter_trim]

/-- A written token is read as the same token. -/
theorem ofSegment_written (p : Text) : ofSegment (ofSegment p).written = ofSegment p := by
  rcases ofSegment_cases p with hp | ⟨k, v, rfl, hk, hd, hv, hp⟩
  · rw [hp]
    exact hp
  · have closed : depthAfter 0 (trim k) = 0 := by rw [depthAfter_trim, hd]
    rw [hp, written_pair, ofSegment_pair (isWhole_trim hk) closed (isWhole_trim hv), trim_trim,
      trim_trim]

end Token

/-- The tokens of a text, written down and joined by commas, are read as the same tokens. -/
theorem tokenize_joined_written (s : Text) :
    tokenize (joined "," ((tokenize s).map Token.written)) = tokenize s := by
  have forms (p : Text) (hp : p ∈ segments s) := Token.isSegment_written (isSegment_of_mem hp)
  have whole : ∀ w ∈ ((segments s).map Token.ofSegment).map Token.written, IsSegment w := by
    rw [List.map_map]
    intro w hw
    obtain ⟨p, hp, rfl⟩ := List.mem_map.1 hw
    exact (forms p hp).1
  have closed : (((segments s).map Token.ofSegment).map Token.written).Pairwise
      fun p _ => depthAfter 0 p = 0 := by
    rw [List.map_map, List.pairwise_map]
    refine (pairwise_segments s).imp_of_mem fun {p _} hp _ hd => ?_
    rw [Function.comp_apply, (forms p hp).2, hd]
  rw [tokenize_eq_map, tokenize_eq_map s, segments_joined whole closed, List.map_map, List.map_map]
  exact List.map_congr_left fun p _ => Token.ofSegment_written p

end Inspector
