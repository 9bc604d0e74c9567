import Inspector.Quantity

/-!
# Fragments

The part of a class name behind its lead, spelled from a value: `[12px]` of `gap-[12px]`. A field
takes lengths, percentages, or sizes; each reader refuses what the field does not admit.
-/

namespace Inspector.Fragment

open Text

/-! ## Lengths and percentages -/

def inPixels (x : Binary64) : Text := "[" ++ x.spelled ++ "px]"

def inPercent (x : Binary64) : Text := "[" ++ x.spelled ++ "%]"

/-- The number of pixels of a value: a quantity in `px` or without a unit. -/
def pixels? (value : Text) : Option Binary64 :=
  ((Quantity.ofText? value).filter Quantity.isPixels).map Quantity.magnitude

/-- A value in pixels, as `[Npx]`. -/
def ofPixels? (value : Text) : Option Text := (pixels? value).map inPixels

/-- A length in pixels or percent, as `[Npx]` or `[N%]`. -/
def ofLength? (value : Text) : Option Text :=
  (Quantity.ofText? value).bind fun q =>
    match q.unit with
    | none | some .px => some (inPixels q.magnitude)
    | some .percent => some (inPercent q.magnitude)
    | some .deg => none

/-- A percentage from 0 to 100: `N` if it is whole, `[N%]` otherwise. -/
def ofPercent? (value : Text) : Option Text :=
  (Quantity.ofText? value).bind fun q =>
    if q.unit = some .px ∨ q.unit = some .deg then none
    else if q.magnitude.isNegative || !q.magnitude.absLe 100 then none
    else some (if q.magnitude.isWhole then q.magnitude.spelled else inPercent q.magnitude)

/-- Whether a fragment is spelled with a minus sign. -/
def isMinus (fragment : Text) : Bool := "[-".toList.isPrefixOf fragment

/-- A value in pixels that is not spelled with a minus sign, as `[Npx]`. -/
def ofExtent? (value : Text) : Option Text := (ofPixels? value).filter (!isMinus ·)

/-! ## Sizes -/

/-- Sizes that are spelled as they are written. -/
def sizeWords : List Text :=
  ["auto", "full", "screen", "fit", "min", "max", "px", "svw", "lvw", "dvw", "svh", "lvh", "dvh"]

/-- A numeral of ASCII digits without a leading zero. -/
def isCount (t : Text) : Bool := t.all Char.isDigit && t.head?.any (· != '0')

/-- Two counts with a slash between them. -/
def isFraction (value : Text) : Bool :=
  match value.splitOn '/' with
  | [a, b] => isCount a && isCount b
  | _ => false

/-- Text in square brackets, without blanks or further square brackets. -/
def isBracketed (value : Text) : Bool :=
  match value with
  | '[' :: rest =>
    rest.getLast? == some ']' && 1 < rest.length &&
      rest.dropLast.all fun c => c != '[' && c != ']' && !isBlank c
  | _ => false

/-- A size word or bracketed text. -/
def isPassThrough (value : Text) : Bool := sizeWords.contains value || isBracketed value

/-- A size: `fill`, `hug`, a length without a minus sign, a fraction, or a passed-through value. -/
def ofSize? (value : Text) : Option Text :=
  if lower value = "fill" then some "full"
  else if lower value = "hug" then some "auto"
  else
    match (ofLength? value).filter (!isMinus ·) with
    | some fragment => some fragment
    | none => if isFraction value || isPassThrough value then some value else none

end Inspector.Fragment
