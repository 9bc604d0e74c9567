import Inspector.Number.Numeral
import Inspector.Number.Shortest
import Inspector.Text.Blank

/-!
# JSON numbers

A number without point and exponent is an integer if it fits 64 bits, signed or not; any other is a
binary64 number. A binary64 number is found from the leading digits that fit an unsigned word of 64
bits, by one product or quotient with a power of ten, so that its last bit may differ from that of
the nearest number.

    readNumber t = some (n, rest) → rest.length < t.length                       (length_readNumber_lt)
-/

namespace Inspector.Json

open Text Numeral

inductive Number where
  | integer (n : Int)
  | floating (x : Binary64)
  deriving DecidableEq, Repr

/-- The greatest word of 64 bits. -/
def greatestWord : Nat := Nat.pow 2 64 - 1

/-- A number as it is written: the digits before and behind the point, and the exponent with the
sign that it has. -/
structure Lexeme where
  negative : Bool
  whole : Text
  fraction : Text := []
  exponent : Option (Bool × Text) := none
  deriving DecidableEq, Repr

/-! ## The written form -/

/-- The fraction of a number; a point has to be followed by a digit. -/
def fraction? (t : Text) : Option (Text × Text) :=
  match t with
  | '.' :: r =>
    if (r.takeWhile Char.isDigit).isEmpty then none
    else some (r.takeWhile Char.isDigit, r.dropWhile Char.isDigit)
  | _ => some ([], t)

/-- The written form of a number behind its sign; a leading zero stands alone. -/
def magnitude? (negative : Bool) (t : Text) : Option (Lexeme × Text) := do
  let whole := t.takeWhile Char.isDigit
  if whole.isEmpty || (whole.head? == some '0' && 1 < whole.length) then none
  else
    let (fraction, r) ← fraction? (t.dropWhile Char.isDigit)
    let (exponent, r) ← exponent? r
    return (⟨negative, whole, fraction, exponent⟩, r)

/-- The written form of a number at the start of a text. -/
def lexeme? (t : Text) : Option (Lexeme × Text) :=
  match t with
  | '-' :: r => magnitude? true r
  | _ => magnitude? false t

/-! ## The number -/

def digitValue (c : Char) : Nat := c.toNat - '0'.toNat

/-- The digits before the point as a word, and how many of them did not fit. -/
def wholeWord (word : Nat) : Text → Nat × Nat
  | [] => (word, 0)
  | c :: r =>
    if word * 10 + digitValue c ≤ greatestWord then wholeWord (word * 10 + digitValue c) r
    else (word, r.length + 1)

/-- The word with the digits behind the point taken in, and how many of them fitted. -/
def fractionWord (word : Nat) : Text → Nat × Nat
  | [] => (word, 0)
  | c :: r =>
    if word * 10 + digitValue c ≤ greatestWord then
      let (w, n) := fractionWord (word * 10 + digitValue c) r
      (w, n + 1)
    else (word, 0)

/-- `x · 10^exponent`, unless that is beyond the greatest number. Powers of ten are taken up to the
308th; smaller numbers are divided more than once. -/
def scaled? (x : Binary64) (exponent : Int) : Option Binary64 :=
  if x.isZero then some x
  else if exponent < -308 then
    scaled? (x.div (.ofDecimal false 1 308)) (exponent + 308)
  else if exponent < 0 then some (x.div (.ofDecimal false 1 (-exponent)))
  else if 308 < exponent then none
  else
    let y := x.mul (.ofDecimal false 1 exponent)
    if y.isFinite then some y else none
termination_by (-exponent).toNat

/-- The exponent of a lexeme, from the one that its digits bring along; none if it has more digits
than 31 bits hold. -/
def exponentFrom? (start : Int) : Option (Bool × Text) → Option Int
  | none => some start
  | some (negative, digits) =>
    let n := Nat.ofDigitChars 10 digits 0
    if Nat.pow 2 31 ≤ n then none else some (if negative then start - n else start + n)

def Lexeme.floating? (l : Lexeme) : Option Binary64 :=
  let (word, dropped) := wholeWord 0 l.whole
  let (word, added) := fractionWord word l.fraction
  let signed (x : Binary64) := if l.negative then x.neg else x
  match exponentFrom? (dropped - added) l.exponent with
  | some e => (scaled? (.ofNat word) e).map signed
  | none =>
    if word != 0 && l.exponent.any (fun e => !e.1) then none else some (signed (.finite false 0))

/-- Whether an integer is kept as one: the negative zero is not. -/
def Lexeme.isInteger (l : Lexeme) : Bool :=
  let n := Nat.ofDigitChars 10 l.whole 0
  l.fraction.isEmpty && l.exponent.isNone &&
    if l.negative then 0 < n && n ≤ Nat.pow 2 63 else n ≤ greatestWord

def Lexeme.number? (l : Lexeme) : Option Number :=
  let n : Int := Nat.ofDigitChars 10 l.whole 0
  if l.isInteger then some (.integer (if l.negative then -n else n))
  else l.floating?.map .floating

/-- The number at the start of a text, with the rest behind it. -/
def readNumber (t : Text) : Option (Number × Text) := do
  let (l, rest) ← lexeme? t
  let n ← l.number?
  return (n, rest)

theorem length_fraction?_le {t f r : Text} (h : fraction? t = some (f, r)) :
    r.length ≤ t.length := by
  unfold fraction? at h
  split at h
  · next s =>
    split at h
    · simp at h
    · simp only [Option.some.injEq, Prod.mk.injEq] at h
      have := length_dropWhile_le Char.isDigit s
      simp only [← h.2, List.length_cons]; omega
  · simp only [Option.some.injEq, Prod.mk.injEq] at h
    simp [h.2]

theorem length_dropWhile_lt {t : Text} (h : (t.takeWhile Char.isDigit).isEmpty = false) :
    (t.dropWhile Char.isDigit).length < t.length := by
  have h1 := congrArg List.length (@List.takeWhile_append_dropWhile _ Char.isDigit t)
  have h2 : t.takeWhile Char.isDigit ≠ [] := by simpa using h
  have h3 := List.length_pos_iff.2 h2
  simp only [List.length_append] at h1
  omega

theorem length_magnitude?_lt {negative : Bool} {t r : Text} {l : Lexeme}
    (h : magnitude? negative t = some (l, r)) : r.length < t.length := by
  unfold magnitude? at h
  simp only [Option.bind_eq_bind] at h
  split at h
  · simp at h
  · next hw =>
    simp only [Bool.or_eq_true, not_or, Bool.not_eq_true] at hw
    have hd := length_dropWhile_lt hw.1
    simp only [Option.bind_eq_some_iff, Option.pure_def, Option.some.injEq, Prod.mk.injEq] at h
    obtain ⟨⟨f, r1⟩, hf, ⟨e, r2⟩, he, _, rfl⟩ := h
    have h1 : r1.length ≤ _ := length_fraction?_le hf
    have h2 : r2.length ≤ r1.length := length_exponent?_le he
    show r2.length < t.length
    omega

theorem length_lexeme?_lt {t r : Text} {l : Lexeme} (h : lexeme? t = some (l, r)) :
    r.length < t.length := by
  unfold lexeme? at h
  split at h
  · exact Nat.lt_succ_of_lt (length_magnitude?_lt h)
  · exact length_magnitude?_lt h

theorem length_readNumber_lt {t r : Text} {n : Number} (h : readNumber t = some (n, r)) :
    r.length < t.length := by
  simp only [readNumber, Option.bind_eq_bind, Option.bind_eq_some_iff, Option.pure_def,
    Option.some.injEq, Prod.mk.injEq] at h
  obtain ⟨⟨l, r1⟩, hl, _, _, _, rfl⟩ := h
  exact length_lexeme?_lt hl

/-! ## The text of a number in a message -/

/-- The digits with a point and, far from one, an exponent: positional from `10⁻⁵` to below `10¹⁶`,
with `.0` behind a whole number. -/
def decimalText (d : Decimal) : Text :=
  let lead := d.exponent + (d.digits.length - 1 : Nat)
  if -5 ≤ lead ∧ lead ≤ 15 then
    if 0 ≤ d.exponent then d.positional ++ ".0" else d.positional
  else
    let tail := d.digits.tail
    d.digits.take 1 ++ (if tail.isEmpty then [] else '.' :: tail) ++
      (if lead < 0 then "e-" else "e+") ++ Nat.toDigits 10 lead.natAbs

/-- The shortest text; a tie goes to the even coefficient. -/
def floatingText : Binary64 → Text
  | .nan => "NaN"
  | .infinite s => Binary64.signText s ++ "inf"
  | .finite s u =>
    Binary64.signText s ++
      if u = 0 then ['0', '.', '0'] else decimalText (Binary64.shortest .even u)

def integerText (n : Int) : Text := Binary64.signText (n < 0) ++ Nat.toDigits 10 n.natAbs

end Inspector.Json
