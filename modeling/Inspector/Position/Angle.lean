import Inspector.Quantity

/-!
# Angles

An angle counts up to whole turns: it is brought into the interval from -180 (excluded) to 180
degrees. The remainder and the difference of this are exact, so no rounding happens on the way. An
infinite angle has no remainder and stays undefined.
-/

namespace Inspector.Position.Angle

open Text Binary64

/-- The angle in the interval `(-180, 180]` that differs from `degrees` by whole turns. -/
def wrapped : Binary64 → Binary64
  | .finite negative u =>
    let turn := 360 * unitsPerOne
    let r := u % turn
    if negative then
      if turn ≤ 2 * r then .finite false (turn - r) else .finite true r
    else
      if turn < 2 * r then .finite true (turn - r) else .finite false r
  | _ => .nan

/-- Angles with a class of their own. -/
def steps : List Nat := [1, 2, 3, 6, 12, 45, 90, 180]

/-- The class of a rotation; no rotation needs none. -/
def class? (degrees : Binary64) : Option Text :=
  let a := wrapped degrees
  if a.isZero then none
  else
    match a with
    | .finite negative u =>
      if a.isWhole && steps.contains (u / unitsPerOne) then
        some ((if negative then ['-'] else []) ++ "rotate-" ++ Nat.toDigits 10 (u / unitsPerOne))
      else some ("rotate-[" ++ a.spelled ++ "deg]")
    | _ => some ("rotate-[" ++ a.spelled ++ "deg]")

end Inspector.Position.Angle
