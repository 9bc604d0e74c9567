import Inspector.Proofs.Text
import Inspector.Proofs.Text.Octets

/-!
# Cuts at offsets

An offset into a text counts its UTF-8 octets. It lies between two characters at the end of the text
and on every octet that begins a character. A cut takes two such offsets, the first not behind the
second, and gives the characters from one to the other; any other cut is a fault, and a fault ends
the reading that asked for it.

    isBoundary t i ↔ ∃ a b, t = a ++ b ∧ i = octetCount a                          (isBoundary_iff)
    slice? t i j = some u ↔ ∃ a b, t = a ++ u ++ b with u from i to j         (slice?_eq_some_iff)
    slice t i j is no fault ↔ i ≤ j ≤ octetCount t, both between characters        (slice_ok_iff)
    octets u = the octets of t from i to j, where slice? t i j = some u            (octets_slice?)
    behind head t = .ok (afterWord? head t)                                            (behind_eq)
-/

namespace Inspector

namespace Text

/-! ## Algorithm -/

def octetCount (t : Text) : Nat := (octets t).length

/-- An octet that continues a character. -/
def isFollower (b : UInt8) : Bool := 0x80 ≤ b.toNat && b.toNat < 0xC0

/-- Whether an offset is the end of the text or falls on an octet that begins a character. -/
def isBoundary (t : Text) (i : Nat) : Bool :=
  i == octetCount t || (octets t)[i]?.any (!isFollower ·)

/-- The characters of a text with the offsets at which they begin. -/
def offsets (start : Nat) : Text → List (Nat × Char)
  | [] => []
  | c :: r => (start, c) :: offsets (start + c.utf8Size) r

/-- The characters that begin at `i` or behind it and before `j`, if both offsets lie between
characters and `j` is not before `i`. -/
def slice? (t : Text) (i j : Nat) : Option Text :=
  if i ≤ j ∧ isBoundary t i ∧ isBoundary t j then
    some (((offsets 0 t).filter fun p => i ≤ p.1 && p.1 < j).map Prod.snd)
  else none

end Text

open Text

namespace Offset

/-- Why a reading that cuts at offsets stops short. -/
inductive Fault where
  /-- A cut outside of the text, within a character, or with its end before its start. -/
  | cut (text : Text) (start stop : Nat)
  /-- A difference below zero. -/
  | belowZero (m n : Nat)
  deriving DecidableEq, Repr

def slice (t : Text) (i j : Nat) : Except Fault Text :=
  match slice? t i j with
  | some u => .ok u
  | none => .error (.cut t i j)

def minus (m n : Nat) : Except Fault Nat :=
  if n ≤ m then .ok (m - n) else .error (.belowZero m n)

/-- Whether a text begins with a word, in any case. It does not where it is shorter, or where the
octets of the word end within a character. -/
def beginsWith (word t : Text) : Bool := (slice? t 0 (octetCount word)).any (sameWord · word)

/-- The text behind a word, in any case. -/
def behind (word t : Text) : Except Fault (Option Text) :=
  if beginsWith word t then do
    let rest ← slice t (octetCount word) (octetCount t)
    return some rest
  else .ok none

end Offset

/-! ## Octets -/

namespace Text

@[simp] theorem octets_nil : octets [] = [] := rfl

theorem octets_cons (c : Char) (t : Text) : octets (c :: t) = String.utf8EncodeChar c ++ octets t :=
  rfl

theorem octets_append (a b : Text) : octets (a ++ b) = octets a ++ octets b :=
  List.flatMap_append

@[simp] theorem octetCount_nil : octetCount [] = 0 := rfl

@[simp] theorem octetCount_cons (c : Char) (t : Text) :
    octetCount (c :: t) = c.utf8Size + octetCount t := by
  rw [octetCount, octets_cons, List.length_append, String.length_utf8EncodeChar, octetCount]

@[simp] theorem octetCount_append (a b : Text) :
    octetCount (a ++ b) = octetCount a + octetCount b := by
  rw [octetCount, octets_append, List.length_append, octetCount, octetCount]

theorem length_le_octetCount (t : Text) : t.length ≤ octetCount t := by
  induction t with
  | nil => exact Nat.le_refl 0
  | cons c t ih =>
    have := c.utf8Size_pos
    rw [List.length_cons, octetCount_cons]
    omega

theorem utf8Size_of_ascii {c : Char} (h : c.toNat ≤ 0x7F) : c.utf8Size = 1 :=
  Char.utf8Size_eq_one_iff.2 h

/-- The letters that change in lower case take one octet before and after. -/
theorem utf8Size_toLower (c : Char) : c.toLower.utf8Size = c.utf8Size := by
  rcases toLower_cases c with h | ⟨h1, h2, h3⟩
  · rw [h]
  · rw [utf8Size_of_ascii (c := c) (by omega), utf8Size_of_ascii (by omega)]

theorem octetCount_lower (t : Text) : octetCount (lower t) = octetCount t := by
  induction t with
  | nil => rfl
  | cons c t ih =>
    show octetCount (c.toLower :: lower t) = _
    rw [octetCount_cons, utf8Size_toLower, ih, octetCount_cons]

/-! ## Boundaries -/

theorem not_isFollower_lead (c : Char) : isFollower (UInt8.ofNat (lead c.val.toNat)) = false := by
  have hv := codePoint_lt c
  have range : lead c.val.toNat < 0x80 ∨ 0xC0 ≤ lead c.val.toNat := by
    unfold lead
    split_ifs <;> omega
  rw [isFollower, UInt8.toNat_ofNat_of_lt' (lead_lt hv), Bool.and_eq_false_iff,
    decide_eq_false_iff_not, decide_eq_false_iff_not]
  omega

theorem isFollower_of_mem_groups {n v : Nat} {b : UInt8} (h : b ∈ groups n v) : isFollower b := by
  induction n with
  | zero => exact absurd h List.not_mem_nil
  | succ n ih =>
    rcases List.mem_cons.1 h with rfl | h
    · have range : v / 64 ^ n % 64 < 64 := Nat.mod_lt _ (by decide)
      have octet : v / 64 ^ n % 64 + 128 < 256 := by omega
      rw [isFollower, UInt8.toNat_ofNat_of_lt' octet, Bool.and_eq_true, decide_eq_true_iff,
        decide_eq_true_iff]
      omega
    · exact ih h

/-- Within a character there is no boundary. -/
theorem not_isBoundary_within {c : Char} {i : Nat} (hpos : 0 < i) (hlt : i < c.utf8Size)
    (t : Text) : isBoundary (c :: t) i = false := by
  obtain ⟨k, rfl⟩ : ∃ k, i = k + 1 := ⟨i - 1, by omega⟩
  have inside : (k + 1 == octetCount (c :: t)) = false := by
    rw [octetCount_cons, beq_eq_false_iff_ne]
    omega
  rw [← String.length_utf8EncodeChar, utf8EncodeChar_eq, List.length_cons] at hlt
  have hk : k < (groups (followers c.val.toNat) c.val.toNat).length := Nat.lt_of_succ_lt_succ hlt
  have follower : isFollower (groups (followers c.val.toNat) c.val.toNat)[k] :=
    isFollower_of_mem_groups (List.getElem_mem hk)
  rw [isBoundary, inside, octets_cons, utf8EncodeChar_eq, List.cons_append, List.getElem?_cons_succ,
    List.getElem?_append_left hk, List.getElem?_eq_getElem hk, Option.any_some, follower]
  rfl

theorem isBoundary_zero (t : Text) : isBoundary t 0 := by
  cases t with
  | nil => rfl
  | cons c t =>
    rw [isBoundary, octets_cons, utf8EncodeChar_eq, List.cons_append, List.getElem?_cons_zero,
      Option.any_some, not_isFollower_lead]
    exact Bool.or_true _

theorem isBoundary_append (a b : Text) (i : Nat) :
    isBoundary (a ++ b) (octetCount a + i) = isBoundary b i := by
  have behind : (octets (a ++ b))[octetCount a + i]? = (octets b)[i]? := by
    rw [octets_append, octetCount, List.getElem?_append_right (Nat.le_add_right _ _),
      Nat.add_sub_cancel_left]
  have ends : (octetCount a + i == octetCount (a ++ b)) = (i == octetCount b) := by
    rw [octetCount_append, Bool.eq_iff_iff, beq_iff_eq, beq_iff_eq]
    omega
  rw [isBoundary, behind, ends, isBoundary]

/-- The boundaries are the counts of octets of the starts of the text. -/
theorem isBoundary_iff {t : Text} {i : Nat} :
    isBoundary t i ↔ ∃ a b, t = a ++ b ∧ i = octetCount a := by
  constructor
  · intro h
    induction t generalizing i with
    | nil =>
      obtain rfl : i = 0 := by simpa [isBoundary] using h
      exact ⟨[], [], rfl, rfl⟩
    | cons c t ih =>
      by_cases hi : i = 0
      · exact ⟨[], c :: t, rfl, hi⟩
      · have hle : c.utf8Size ≤ i := by
          by_contra hlt
          rw [not_isBoundary_within (by omega) (by omega)] at h
          exact Bool.false_ne_true h
        obtain ⟨j, rfl⟩ := Nat.exists_eq_add_of_le hle
        have shifted := isBoundary_append [c] t j
        rw [octetCount_cons, octetCount_nil, Nat.add_zero] at shifted
        have later : isBoundary t j := shifted ▸ h
        obtain ⟨a, b, rfl, rfl⟩ := ih later
        exact ⟨c :: a, b, rfl, (octetCount_cons c a).symm⟩
  · rintro ⟨a, b, rfl, rfl⟩
    exact (isBoundary_append a b 0).trans (isBoundary_zero b)

theorem le_of_isBoundary {t : Text} {i : Nat} (h : isBoundary t i) : i ≤ octetCount t := by
  obtain ⟨a, b, rfl, rfl⟩ := isBoundary_iff.1 h
  rw [octetCount_append]
  exact Nat.le_add_right _ _

/-! ## Slices -/

theorem offsets_append (n : Nat) (a b : Text) :
    offsets n (a ++ b) = offsets n a ++ offsets (n + octetCount a) b := by
  induction a generalizing n with
  | nil => rfl
  | cons c a ih =>
    rw [List.cons_append, offsets, ih, octetCount_cons, Nat.add_assoc, offsets, List.cons_append]

theorem map_snd_offsets (n : Nat) (t : Text) : (offsets n t).map Prod.snd = t := by
  induction t generalizing n with
  | nil => rfl
  | cons c t ih => rw [offsets, List.map_cons, ih]

theorem mem_offsets {n : Nat} {t : Text} {p : Nat × Char} (h : p ∈ offsets n t) :
    n ≤ p.1 ∧ p.1 < n + octetCount t := by
  induction t generalizing n with
  | nil => exact absurd h List.not_mem_nil
  | cons c t ih =>
    have := c.utf8Size_pos
    rw [octetCount_cons]
    rcases List.mem_cons.1 h with rfl | h
    · dsimp only
      omega
    · have := ih h
      omega

/-- Characters before the first offset, or from the second one on, are left out. -/
theorem filter_offsets_outside {n i j : Nat} {t : Text} (h : n + octetCount t ≤ i ∨ j ≤ n) :
    (offsets n t).filter (fun p => i ≤ p.1 && p.1 < j) = [] := by
  refine List.filter_eq_nil_iff.2 fun p hp => ?_
  have := mem_offsets hp
  rw [Bool.and_eq_true, decide_eq_true_iff, decide_eq_true_iff]
  omega

theorem filter_offsets_within {n i j : Nat} {t : Text} (hi : i ≤ n) (hj : n + octetCount t ≤ j) :
    (offsets n t).filter (fun p => i ≤ p.1 && p.1 < j) = offsets n t := by
  refine List.filter_eq_self.2 fun p hp => ?_
  have := mem_offsets hp
  rw [Bool.and_eq_true, decide_eq_true_iff, decide_eq_true_iff]
  omega

/-- What stands between two texts is cut out at the offsets of its ends. -/
theorem slice?_append (a u b : Text) :
    slice? (a ++ u ++ b) (octetCount a) (octetCount (a ++ u)) = some u := by
  have start : isBoundary (a ++ u ++ b) (octetCount a) :=
    isBoundary_iff.2 ⟨a, u ++ b, List.append_assoc a u b, rfl⟩
  have stop : isBoundary (a ++ u ++ b) (octetCount (a ++ u)) :=
    isBoundary_iff.2 ⟨a ++ u, b, rfl, rfl⟩
  have order : octetCount a ≤ octetCount (a ++ u) := by
    rw [octetCount_append]
    exact Nat.le_add_right _ _
  rw [slice?, if_pos ⟨order, start, stop⟩, offsets_append, offsets_append, List.filter_append,
    List.filter_append, Nat.zero_add, Nat.zero_add,
    filter_offsets_outside (n := 0) (.inl (Nat.zero_add _).le),
    filter_offsets_within (Nat.le_refl _) (octetCount_append a u).ge,
    filter_offsets_outside (.inr (Nat.le_refl _)), List.nil_append, List.append_nil,
    map_snd_offsets]

theorem slice?_isSome_iff {t : Text} {i j : Nat} :
    (slice? t i j).isSome ↔ i ≤ j ∧ isBoundary t i ∧ isBoundary t j := by
  unfold slice?
  split
  · next h => exact iff_of_true rfl h
  · next h => exact iff_of_false Bool.false_ne_true h

theorem slice?_eq_some_iff {t u : Text} {i j : Nat} :
    slice? t i j = some u ↔
      ∃ a b, t = a ++ u ++ b ∧ i = octetCount a ∧ j = octetCount (a ++ u) := by
  constructor
  · intro h
    obtain ⟨order, start, stop⟩ := slice?_isSome_iff.1 (Option.isSome_iff_exists.2 ⟨u, h⟩)
    obtain ⟨a, r, rfl, rfl⟩ := isBoundary_iff.1 start
    obtain ⟨k, rfl⟩ := Nat.exists_eq_add_of_le order
    rw [isBoundary_append] at stop
    obtain ⟨m, b, rfl, rfl⟩ := isBoundary_iff.1 stop
    have cut : slice? (a ++ m ++ b) (octetCount a) (octetCount (a ++ m)) = some m :=
      slice?_append a m b
    rw [List.append_assoc, octetCount_append] at cut
    obtain rfl : m = u := Option.some.inj (cut.symm.trans h)
    exact ⟨a, b, (List.append_assoc a m b).symm, rfl, (octetCount_append a m).symm⟩
  · rintro ⟨a, b, rfl, rfl, rfl⟩
    exact slice?_append a u b

/-- A slice has the octets between its offsets. -/
theorem octets_slice? {t u : Text} {i j : Nat} (h : slice? t i j = some u) :
    octets u = (octets t).extract i j := by
  obtain ⟨a, b, rfl, rfl, rfl⟩ := slice?_eq_some_iff.1 h
  have count : octetCount (a ++ u) - octetCount a = octetCount u := by
    rw [octetCount_append, Nat.add_sub_cancel_left]
  rw [List.extract_eq_take_drop, count, octets_append, octets_append, List.append_assoc,
    octetCount, octetCount, List.drop_left, List.take_left]

end Text

/-! ## Readings -/

namespace Offset

theorem slice_append (a u b : Text) :
    slice (a ++ u ++ b) (octetCount a) (octetCount (a ++ u)) = .ok u := by
  rw [slice, slice?_append]

theorem slice_front (u b : Text) : slice (u ++ b) 0 (octetCount u) = .ok u :=
  slice_append [] u b

theorem slice_back (a u : Text) : slice (a ++ u) (octetCount a) (octetCount (a ++ u)) = .ok u := by
  have cut := slice_append a u []
  rwa [List.append_nil] at cut

theorem octets_slice {t u : Text} {i j : Nat} (h : slice t i j = .ok u) :
    octets u = (octets t).extract i j := by
  unfold slice at h
  split at h
  · next cut =>
    cases h
    exact octets_slice? cut
  · cases h

/-- A cut goes through just if its ends lie in the text, between characters and in order. -/
theorem slice_ok_iff {t : Text} {i j : Nat} :
    (∃ u, slice t i j = .ok u) ↔
      i ≤ j ∧ j ≤ octetCount t ∧ isBoundary t i ∧ isBoundary t j := by
  have through : (∃ u, slice t i j = .ok u) ↔ (slice? t i j).isSome := by
    unfold slice
    cases slice? t i j <;> simp
  rw [through, slice?_isSome_iff]
  constructor
  · rintro ⟨order, start, stop⟩
    exact ⟨order, le_of_isBoundary stop, start, stop⟩
  · rintro ⟨order, -, start, stop⟩
    exact ⟨order, start, stop⟩

/-- The middle of a character is no place to cut. -/
example : slice "é=1" 1 2 = .error (.cut "é=1" 1 2) ∧ slice "é=1" 2 3 = .ok "=".toList := by decide

theorem minus_add_left (m n : Nat) : minus (m + n) n = .ok m := by
  rw [minus, if_pos (Nat.le_add_left n m), Nat.add_sub_cancel]

/-- A word has as many octets in every case, so that the cut is behind the word as it is written. -/
theorem beginsWith_iff {word t : Text} :
    beginsWith word t ↔ ∃ head rest,
      t = head ++ rest ∧ lower head = lower word ∧ octetCount head = octetCount word := by
  rw [beginsWith, Option.any_eq_true]
  constructor
  · rintro ⟨head, cut, same⟩
    obtain ⟨a, rest, rfl, start, stop⟩ := slice?_eq_some_iff.1 cut
    -- no octet stands before the head, so no character does
    obtain rfl : a = [] := List.eq_nil_of_length_eq_zero
      (Nat.le_zero.1 (start ▸ length_le_octetCount a))
    exact ⟨head, rest, rfl, beq_iff_eq.1 same, stop.symm⟩
  · rintro ⟨head, rest, rfl, same, count⟩
    exact ⟨head, count ▸ slice?_append [] head rest, beq_iff_eq.2 same⟩

theorem afterWord?_of_not_beginsWith {word t : Text} (h : ¬ beginsWith word t) :
    afterWord? word t = none := by
  cases hrest : afterWord? word t with
  | none => rfl
  | some rest =>
    obtain ⟨head, rfl, same⟩ := eq_append_of_afterWord? hrest
    have count : octetCount head = octetCount word := by
      rw [← octetCount_lower, same, octetCount_lower]
    exact absurd (beginsWith_iff.2 ⟨head, rest, rfl, same, count⟩) h

theorem behind_eq (word t : Text) : behind word t = .ok (afterWord? word t) := by
  unfold behind
  split
  · next h =>
    obtain ⟨head, rest, rfl, same, count⟩ := beginsWith_iff.1 h
    rw [afterWord?_of_lower same, ← count, slice_back]
    rfl
  · next h => rw [afterWord?_of_not_beginsWith h]

end Offset

end Inspector
