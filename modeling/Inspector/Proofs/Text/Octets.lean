import Inspector.Text.Basic
import Mathlib.Algebra.Group.Nat.Defs
import Mathlib.Data.List.Basic
import Mathlib.Tactic.SplitIfs

/-!
# The order of UTF-8 octets

A character is written as an octet that grows with the code point and tells how many octets follow,
and then its lower bits in groups of six, the higher ones first. So two texts compare by their
octets as they do by their code points.

    octets s < octets t ↔ s < t                                               (octets_lt_octets_iff)
-/

namespace Inspector.Text

/-- The UTF-8 octets of a text. -/
def octets (t : Text) : List UInt8 := t.flatMap String.utf8EncodeChar

/-! ## One character -/

/-- How many octets follow the first one of a code point. -/
def followers (v : Nat) : Nat :=
  if v ≤ 0x7F then 0 else if v ≤ 0x7FF then 1 else if v ≤ 0xFFFF then 2 else 3

/-- The first octet of a code point. -/
def lead (v : Nat) : Nat :=
  if v ≤ 0x7F then v
  else if v ≤ 0x7FF then v / 64 + 192
  else if v ≤ 0xFFFF then v / 4096 + 224
  else v / 262144 + 240

/-- The lowest `n` groups of six bits, each in an octet. -/
def groups : Nat → Nat → List UInt8
  | 0, _ => []
  | n + 1, v => UInt8.ofNat (v / 64 ^ n % 64 + 128) :: groups n v

theorem codePoint_lt (c : Char) : c.val.toNat < 0x110000 := by
  rcases c.valid with h | h
  · have h' : c.val.toNat < 0xD800 := h
    omega
  · exact h.2

theorem utf8EncodeChar_eq (c : Char) :
    String.utf8EncodeChar c =
      UInt8.ofNat (lead c.val.toNat) :: groups (followers c.val.toNat) c.val.toNat := by
  have hv := codePoint_lt c
  unfold String.utf8EncodeChar lead followers
  generalize c.val.toNat = v at hv ⊢
  dsimp only
  split_ifs with h1 h2 h3
  · rfl
  · have hlead : v / 64 % 32 = v / 64 := by omega
    simp [groups, hlead]
  · have hlead : v / 4096 % 16 = v / 4096 := by omega
    simp [groups, hlead]
  · have hlead : v / 262144 % 8 = v / 262144 := by omega
    simp [groups, hlead]

theorem lead_lt {v : Nat} (h : v < 0x110000) : lead v < 256 := by
  unfold lead
  split_ifs <;> omega

/-- Of two code points either the first octets tell, or they agree on all but the lower bits. -/
theorem lead_cases {v w : Nat} (h : v < w) :
    lead v < lead w ∨ lead v = lead w ∧ followers v = followers w ∧
      v / 64 ^ followers v = w / 64 ^ followers v := by
  unfold lead followers
  split_ifs <;> omega

theorem cons_lt_cons_of_nat {a b : Nat} (ha : a < 256) (hb : b < 256) {t u : List UInt8}
    (h : a < b ∨ a = b ∧ t < u) : UInt8.ofNat a :: t < UInt8.ofNat b :: u := by
  rw [List.cons_lt_cons_iff]
  rcases h with hab | ⟨rfl, htu⟩
  · left
    rw [UInt8.lt_iff_toNat_lt, UInt8.toNat_ofNat_of_lt' ha, UInt8.toNat_ofNat_of_lt' hb]
    exact hab
  · exact .inr ⟨rfl, htu⟩

/-- The lower bits tell, the highest group that differs first. -/
theorem groups_lt {n v w : Nat} (h : v < w) (hn : v / 64 ^ n = w / 64 ^ n) (t u : List UInt8) :
    groups n v ++ t < groups n w ++ u := by
  induction n with
  | zero =>
    rw [Nat.pow_zero, Nat.div_one, Nat.div_one] at hn
    omega
  | succ n ih =>
    have hle : v / 64 ^ n ≤ w / 64 ^ n := Nat.div_le_div_right (Nat.le_of_lt h)
    have hhigh : v / 64 ^ n / 64 = w / 64 ^ n / 64 := by
      rw [Nat.div_div_eq_div_mul, Nat.div_div_eq_div_mul, ← Nat.pow_succ, hn]
    refine cons_lt_cons_of_nat (by omega) (by omega) ?_
    by_cases heq : v / 64 ^ n = w / 64 ^ n
    · exact .inr ⟨by rw [heq], ih heq⟩
    · exact .inl (by omega)

/-- Whatever follows, the character with the smaller code point comes first. -/
theorem utf8EncodeChar_append_lt {c d : Char} (h : c < d) (t u : List UInt8) :
    String.utf8EncodeChar c ++ t < String.utf8EncodeChar d ++ u := by
  have hcd : c.val.toNat < d.val.toNat := h
  rw [utf8EncodeChar_eq, utf8EncodeChar_eq, List.cons_append, List.cons_append]
  refine cons_lt_cons_of_nat (lead_lt (codePoint_lt c)) (lead_lt (codePoint_lt d)) ?_
  rcases lead_cases hcd with hlt | ⟨heq, hwidth, hbits⟩
  · exact .inl hlt
  · refine .inr ⟨heq, ?_⟩
    rw [← hwidth]
    exact groups_lt hcd hbits t u

/-! ## Texts -/

theorem octets_lt_octets {s t : Text} (h : s < t) : octets s < octets t := by
  induction s generalizing t with
  | nil =>
    cases t with
    | nil => exact absurd h (List.lt_irrefl _)
    | cons d t =>
      show [] < String.utf8EncodeChar d ++ octets t
      rw [utf8EncodeChar_eq]
      exact List.nil_lt_cons _ _
  | cons c s ih =>
    cases t with
    | nil => exact absurd h (List.not_lt_nil _)
    | cons d t =>
      show String.utf8EncodeChar c ++ octets s < String.utf8EncodeChar d ++ octets t
      rcases List.cons_lt_cons_iff.1 h with hcd | ⟨rfl, hst⟩
      · exact utf8EncodeChar_append_lt hcd _ _
      · exact List.append_left_lt (ih hst)

/-- Texts compare by their octets as they do by their code points. -/
theorem octets_lt_octets_iff {s t : Text} : octets s < octets t ↔ s < t := by
  refine ⟨fun h => ?_, octets_lt_octets⟩
  by_contra hst
  have hts : ¬ t < s := fun hts => List.lt_asymm h (octets_lt_octets hts)
  obtain rfl : s = t := Std.Trichotomous.trichotomous s t hst hts
  exact List.lt_irrefl _ h

end Inspector.Text
