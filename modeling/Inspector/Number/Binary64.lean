import Inspector.Text.Basic

/-!
# Binary64 numbers, exactly

The numbers of the IEEE 754 format binary64. Every finite one is a whole multiple of `2⁻¹⁰⁷⁴`, the
smallest positive one, so a finite number is its sign and the count of these units; all arithmetic
is then exact arithmetic on `Nat`, followed by one rounding to a significand of 53 bits.

    finite negative (n · unitsPerOne) is ±n
    ofRatio negative num den is the number nearest to ±num/den, ties to the even significand
-/

namespace Inspector

/-- A binary64 number: a sign and a count of units of `2⁻¹⁰⁷⁴`, an infinity, or not a number. -/
inductive Binary64 where
  | finite (negative : Bool) (units : Nat)
  | infinite (negative : Bool)
  | nan
  deriving DecidableEq, Repr

namespace Binary64

/-! ## Rounding -/

/-- How many units make one. -/
def unitsPerOne : Nat := Nat.pow 2 1074

/-- The number of binary digits, none for zero. -/
def bits (n : Nat) : Nat := if n = 0 then 0 else n.log2 + 1

/-- The distance from a number of this many units to the next greater one, in units. -/
def gap (units : Nat) : Nat := Nat.pow 2 (bits units - 53)

/-- The quotient to the nearest whole number, a tie to the even one. -/
def roundDiv (num den : Nat) : Nat :=
  if 2 * (num % den) < den then num / den
  else if den < 2 * (num % den) then num / den + 1
  else num / den + num / den % 2

/-- The units of the number nearest to `num / den`, were there no greatest one. -/
def nearestUnits (num den : Nat) : Nat :=
  let g := gap (num * unitsPerOne / den)
  roundDiv (num * unitsPerOne) (den * g) * g

/-- The number nearest to `± num / den`; from `2¹⁰²⁴` on, an infinity. -/
def ofRatio (negative : Bool) (num den : Nat) : Binary64 :=
  if nearestUnits num den < Nat.pow 2 1024 * unitsPerOne then .finite negative (nearestUnits num den)
  else .infinite negative

/-- The number nearest to `± coefficient · 10^exponent`. Exponents far outside the format are
settled by their size alone, before any power is taken. -/
def ofDecimal (negative : Bool) (coefficient : Nat) (exponent : Int) : Binary64 :=
  if coefficient = 0 then .finite negative 0
  else if 400 ≤ exponent then .infinite negative
  else if exponent + (Nat.toDigits 10 coefficient).length < -400 then .finite negative 0
  else if 0 ≤ exponent then ofRatio negative (coefficient * Nat.pow 10 exponent.toNat) 1
  else ofRatio negative coefficient (Nat.pow 10 (-exponent).toNat)

def ofNat (n : Nat) : Binary64 := ofRatio false n 1

/-! ## Arithmetic and order -/

def neg : Binary64 → Binary64
  | .finite s u => .finite (!s) u
  | .infinite s => .infinite (!s)
  | .nan => .nan

/-- The product of finite numbers; every other product is left undefined as `nan`. -/
def mul : Binary64 → Binary64 → Binary64
  | .finite s u, .finite t v => ofRatio (s != t) (u * v) (unitsPerOne * unitsPerOne)
  | _, _ => .nan

/-- The quotient of finite numbers by one other than zero; every other is left undefined as `nan`. -/
def div : Binary64 → Binary64 → Binary64
  | .finite s u, .finite t v => if v = 0 then .nan else ofRatio (s != t) u v
  | _, _ => .nan

def isFinite : Binary64 → Bool
  | .finite _ _ => true
  | _ => false

/-- Less than zero; the negative zero is not. -/
def isNegative : Binary64 → Bool
  | .finite s u => s && u != 0
  | .infinite s => s
  | .nan => false

def isZero : Binary64 → Bool
  | .finite _ u => u == 0
  | _ => false

/-- Finite and without a fractional part. -/
def isWhole : Binary64 → Bool
  | .finite _ u => u % unitsPerOne == 0
  | _ => false

/-- Whether the absolute value is at most `n`. -/
def absLe (x : Binary64) (n : Nat) : Bool :=
  match x with
  | .finite _ u => u ≤ n * unitsPerOne
  | _ => false

/-- Whether the absolute value is less than `n`. -/
def absLt (x : Binary64) (n : Nat) : Bool :=
  match x with
  | .finite _ u => u < n * unitsPerOne
  | _ => false

/-- The number is `n`, of either sign if `n` is zero. -/
def isNat (x : Binary64) (n : Nat) : Bool :=
  match x with
  | .finite s u => u == n * unitsPerOne && (!s || n == 0)
  | _ => false

end Binary64

end Inspector
