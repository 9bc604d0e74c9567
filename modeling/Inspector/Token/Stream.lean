import Inspector.Token

/-!
# Reading tokens one at a time

A stream is the text not yet read. Each read takes one segment with the comma behind it, passes
over the empty ones, and leaves the rest; an exhausted stream stays exhausted.

    (segment depth (c :: r)).2.length < (c :: r).length               (length_segment_snd_lt)
-/

namespace Inspector.Token

open Text

/-! ## Algorithm -/

/-- The text before the first comma outside groups, and the text behind that comma. -/
def segment (depth : Nat) : Text → Text × Text
  | [] => ([], [])
  | c :: r =>
    if c = ',' ∧ depth = 0 then ([], r)
    else (c :: (segment (Group.shift depth c) r).1, (segment (Group.shift depth c) r).2)

theorem length_segment_snd_lt (depth : Nat) (c : Char) (r : Text) :
    (segment depth (c :: r)).2.length < (c :: r).length := by
  induction r generalizing depth c with
  | nil => simp only [segment]; split <;> simp
  | cons d r ih =>
    rw [segment]
    split
    · simp
    · exact Nat.lt_succ_of_lt (ih (Group.shift depth c) d)

/-- The next token of a stream, and the stream behind it. -/
def next : Text → Option Token × Text
  | [] => (none, [])
  | c :: r =>
    match trim (segment 0 (c :: r)).1 with
    | [] => next (segment 0 (c :: r)).2
    | a :: seg => (some (ofSegment (a :: seg)), (segment 0 (c :: r)).2)
termination_by s => s.length
decreasing_by exact length_segment_snd_lt 0 c r

/-- The results of `n` reads in a row. -/
def reads (s : Text) : Nat → List (Option Token)
  | 0 => []
  | n + 1 => (next s).1 :: reads (next s).2 n

end Inspector.Token
