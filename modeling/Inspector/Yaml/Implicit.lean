import Inspector.Json.Quoted
import Inspector.Number.Numeral

/-!
# Plain scalars that readers take for something else

Without quotes, a text is read as a null, a truth value or a number if it is spelled like one. The
words count in three spellings each: in lower case, in upper case and capitalised. Digits behind a
leading zero are no number to one reader and an octal number to another, so they count as well.
-/

namespace Inspector.Yaml

open Text

/-- The sign for null, and the words for null and for truth values. -/
def reservedWords : List Text :=
  ["~", "null", "Null", "NULL", "true", "True", "TRUE", "false", "False", "FALSE"]

/-- The value of a digit up to `f`, if it is less than the base. -/
def digitIn? (base : Nat) (c : Char) : Option Nat := (Json.hexDigit? c).filter (· < base)

/-- The number that digits write, of which there has to be one. -/
def ofDigits? (base : Nat) (digits : Text) : Option Nat :=
  if digits.isEmpty then none
  else digits.foldlM (fun n c => (digitIn? base c).map (n * base + ·)) 0

/-- The base that a letter behind a `0` stands for. -/
def base? (c : Char) : Option Nat := [('x', 16), ('o', 8), ('b', 2)].lookup c

/-- A whole number with a base, without its sign. -/
def based? : Text → Option Nat
  | '0' :: letter :: digits => (base? letter).bind (ofDigits? · digits)
  | _ => none

/-- A whole number of 128 bits with a base and an optional sign. -/
def isBasedInteger : Text → Bool
  | '-' :: t => (based? t).any (· ≤ Nat.pow 2 127)
  | '+' :: t => (based? t).any (· < Nat.pow 2 128)
  | t => (based? t).any (· < Nat.pow 2 128)

/-- Two digits or more of which the first is a zero, with an optional sign. -/
def isZeroFilled (t : Text) : Bool :=
  let digits := if t.head?.any ['+', '-'].contains then t.tail else t
  digits.head? = some '0' && 1 < digits.length && digits.all Char.isDigit

/-- Infinities, which may have a sign, and what is not a number, which has none. -/
def pointWords : List Text :=
  [".inf", ".Inf", ".INF", "+.inf", "+.Inf", "+.INF", "-.inf", "-.Inf", "-.INF",
    ".nan", ".NaN", ".NAN"]

/-- A finite number in decimal form with an optional sign. -/
def isDecimal (t : Text) : Bool := (Binary64.ofText? t).any (·.isFinite)

/-- A text that a reader takes for something else. -/
def isImplicit (t : Text) : Bool :=
  t.isEmpty || reservedWords.contains t || pointWords.contains t || isZeroFilled t ||
    isBasedInteger t || isDecimal t

end Inspector.Yaml
