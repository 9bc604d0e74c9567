import Inspector.Number.Binary64

/-!
# The shortest decimal of a number

A decimal reads back as a number if it lies in the number's rounding interval: between the
midpoints to the two neighbours, ends included iff the significand is even. The grids of the
decimals with 1, 2, … 17 digits are searched in turn; on each, only the two neighbours of the number
can be nearest, and the first grid with a hit wins. Of two hits the nearer is taken; which of two
equally near ones is taken is up to the form in which the number is shown.
-/

namespace Inspector

/-- The number `coefficient · 10^exponent`. -/
structure Decimal where
  coefficient : Nat
  exponent : Int
  deriving DecidableEq, Repr

namespace Decimal

def digits (d : Decimal) : Text := Nat.toDigits 10 d.coefficient

/-- The digits with a point in their place and no exponent. -/
def positional (d : Decimal) : Text :=
  let places := (-d.exponent).toNat
  if 0 ≤ d.exponent then d.digits ++ List.replicate d.exponent.toNat '0'
  else if d.digits.length ≤ places then
    "0." ++ List.replicate (places - d.digits.length) '0' ++ d.digits
  else d.digits.take (d.digits.length - places) ++ "." ++ d.digits.drop (d.digits.length - places)

end Decimal

/-- Which of two equally near decimals is taken. -/
inductive Tie where
  | greater
  | even
  deriving DecidableEq, Repr

/-- Whether the lesser of two decimals is taken, which has this coefficient. -/
def Tie.takesLesser : Tie → Nat → Bool
  | .greater, _ => false
  | .even, coefficient => coefficient % 2 == 0

namespace Binary64

/-- The distance to the next smaller number: half as much below a power of two. -/
def gapBelow (units : Nat) : Nat :=
  if 53 < bits units ∧ units = Nat.pow 2 (bits units - 1) then gap units / 2 else gap units

/-- The exponent of ten of the first digit. -/
def leadingExponent (units : Nat) : Int :=
  (Nat.toDigits 10 (units * Nat.pow 10 324 / unitsPerOne)).length - 325

/-- The neighbour of the number among the multiples of `10^k` that reads back as the number. -/
def onGrid? (tie : Tie) (units : Nat) (k : Int) : Option Decimal :=
  let scale := Nat.pow 10 (-k).toNat
  let num := units * scale
  let den := unitsPerOne * Nat.pow 10 k.toNat
  let low := num / den
  let rest := num % den
  let even := units / gap units % 2 == 0
  let down := 2 * rest < gapBelow units * scale || (even && 2 * rest == gapBelow units * scale)
  let up := 2 * (den - rest) < gap units * scale ||
    (even && 2 * (den - rest) == gap units * scale)
  let nearer := 2 * rest < den || (2 * rest == den && tie.takesLesser low)
  if down && (!up || nearer) then some ⟨low, k⟩
  else if up then some ⟨low + 1, k⟩
  else none

/-- The shortest decimal that reads back as the positive number of this many units. The power of
ten above the number comes first: it has one digit, too. -/
def shortest (tie : Tie) (units : Nat) : Decimal :=
  let top := leadingExponent units + 1
  ((List.range 18).findSome? fun (i : Nat) => onGrid? tie units (top - i)).getD ⟨0, 0⟩

def signText (negative : Bool) : Text := if negative then ['-'] else []

/-- The shortest positional text: no exponent, no point after a whole number, the sign of zero; a tie
goes to the greater decimal. -/
def text : Binary64 → Text
  | .nan => "NaN"
  | .infinite s => signText s ++ "inf"
  | .finite s u =>
    signText s ++ if u = 0 then ['0'] else (shortest .greater u).positional

/-- A number as class names spell it: a whole number below `10¹⁵` as its numeral, zero without a
sign, any other number as its shortest positional text. -/
def spelled (x : Binary64) : Text :=
  match x with
  | .finite s u =>
    if x.isWhole && x.absLt (Nat.pow 10 15) then
      signText (s && u != 0) ++ Nat.toDigits 10 (u / unitsPerOne)
    else x.text
  | _ => x.text

end Binary64

end Inspector
