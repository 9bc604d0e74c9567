import Inspector.Number.Binary64
import Inspector.Text.Blank

/-!
# Numerals

A numeral is an optional `-`, then digits with an optional point and further digits, or a point
with at least one digit; only the digits 0 to 9 count. Its number is the binary64 number nearest to
the decimal as written, however many digits it has. A number in full may have either sign and an
exponent behind the numeral, or be an infinity, or not a number.

    read? takes the sign, the digits before the point and those behind it off a text
-/

namespace Inspector

open Text

/-- A written decimal: its sign, the digits before the point, and those behind it. -/
structure Numeral where
  negative : Bool
  whole : Text
  fraction : Text
  deriving DecidableEq, Repr

namespace Numeral

/-- The numeral at the start of a text, and the rest behind it. -/
def read? (t : Text) : Option (Numeral × Text) :=
  let negative := t.head? == some '-'
  let t := if negative then t.tail else t
  let whole := t.takeWhile Char.isDigit
  match t.dropWhile Char.isDigit with
  | '.' :: r =>
    let fraction := r.takeWhile Char.isDigit
    if whole.isEmpty && fraction.isEmpty then none
    else some (⟨negative, whole, fraction⟩, r.dropWhile Char.isDigit)
  | r => if whole.isEmpty then none else some (⟨negative, whole, []⟩, r)

/-- The digits as one whole number. -/
def coefficient (n : Numeral) : Nat := Nat.ofDigitChars 10 (n.whole ++ n.fraction) 0

/-- The nearest number. -/
def value (n : Numeral) : Binary64 := .ofRatio n.negative n.coefficient (Nat.pow 10 n.fraction.length)

/-! ## Exponents -/

/-- The text behind an optional sign, and whether that is a minus sign. -/
def unsigned (t : Text) : Bool × Text :=
  match t with
  | '-' :: r => (true, r)
  | '+' :: r => (false, r)
  | _ => (false, t)

/-- The exponent of a number; its letter has to be followed by a digit, a sign aside. -/
def exponent? (t : Text) : Option (Option (Bool × Text) × Text) :=
  match t with
  | c :: r =>
    if c = 'e' ∨ c = 'E' then
      let digits := (unsigned r).2.takeWhile Char.isDigit
      if digits.isEmpty then none
      else some (some ((unsigned r).1, digits), (unsigned r).2.dropWhile Char.isDigit)
    else some (none, t)
  | [] => some (none, [])

theorem length_unsigned_le (t : Text) : (unsigned t).2.length ≤ t.length := by
  unfold unsigned
  split <;> simp

theorem length_exponent?_le {t r : Text} {e : Option (Bool × Text)}
    (h : exponent? t = some (e, r)) : r.length ≤ t.length := by
  unfold exponent? at h
  split at h
  · next c s =>
    split at h
    · simp only at h
      split at h
      · simp at h
      · simp only [Option.some.injEq, Prod.mk.injEq] at h
        have h1 := length_dropWhile_le Char.isDigit (unsigned s).2
        have h2 := length_unsigned_le s
        simp only [← h.2, List.length_cons]; omega
    · simp only [Option.some.injEq, Prod.mk.injEq] at h
      simp [← h.2]
  · simp only [Option.some.injEq, Prod.mk.injEq] at h
    simp [← h.2]

end Numeral

namespace Binary64

/-- A number in words, in any case. -/
def ofWord? (negative : Bool) (t : Text) : Option Binary64 :=
  if sameWord t "inf" || sameWord t "infinity" then some (.infinite negative)
  else if sameWord t "nan" then some .nan
  else none

/-- A number in digits, from behind its sign on. -/
def ofDigits? (negative : Bool) (t : Text) : Option Binary64 := do
  if t.head? = some '-' then none
  let (n, r) ← Numeral.read? t
  let (e, r) ← Numeral.exponent? r
  if !r.isEmpty then none
  let shift : Int := e.elim 0 fun (down, digits) =>
    let size : Int := Nat.ofDigitChars 10 digits 0
    if down then -size else size
  return .ofDecimal negative n.coefficient (shift - n.fraction.length)

/-- The number that a whole text writes. -/
def ofText? (t : Text) : Option Binary64 :=
  let (negative, r) := Numeral.unsigned t
  (ofWord? negative r).orElse fun _ => ofDigits? negative r

end Binary64

end Inspector
