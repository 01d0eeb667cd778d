import DiscussionBoard.Decimal.Shortest

/-!
# Decimals in steps

A decimal of any length is cut down to the digits that fit 64 bits, and these are scaled by a power
of ten in double precision. Every step rounds, so the last bits may differ from those of the nearest
number.
-/

namespace DiscussionBoard.Decimal

/-- Takes in one more digit where the digits then still fit 64 bits. -/
def push? (digits digit : Nat) : Option Nat :=
  if digits * 10 + digit < 1 <<< 64 then some (digits * 10 + digit) else none

/-- Takes in whole digits. From the first that does not fit on they count as zeros. -/
def Scaled.appendWhole (number : Scaled) : List Nat → Scaled
  | [] => number
  | digit :: rest =>
    match push? number.digits digit with
    | some digits => appendWhole ⟨digits, number.exponent⟩ rest
    | none => ⟨number.digits, number.exponent + (rest.length + 1 : Nat)⟩

/-- Takes in digits after the point, up to the first that does not fit. -/
def Scaled.appendFraction (number : Scaled) : List Nat → Scaled
  | [] => number
  | digit :: rest =>
    match push? number.digits digit with
    | some digits => appendFraction ⟨digits, number.exponent - 1⟩ rest
    | none => number

/-- The greatest exponent of a power of ten in double precision. -/
def maxPower : Nat := 308

/-- Scales a number by a power of ten, unless it gets out of range. Below the least power it is
divided by as many great powers as it takes. -/
def scale? (value : Float) (exponent : Int) : Option Float :=
  if exponent < -(maxPower : Int) then
    if value == 0 then some value
    else scale? (value / toFloat 1 maxPower) (exponent + maxPower)
  else if exponent < 0 then some (value / toFloat 1 exponent.natAbs)
  else if maxPower < exponent then
    if value == 0 then some value else none
  else
    let scaled := value * toFloat 1 exponent
    if scaled.isInf then none else some scaled
termination_by exponent.natAbs
decreasing_by simp only [maxPower] at *; omega

/-- A number of double precision near a decimal, unless that is out of range. -/
def Scaled.toFloat? (number : Scaled) : Option Float :=
  scale? (toFloat number.digits 0) number.exponent

end DiscussionBoard.Decimal
