/-!
# Shortest decimals

A binary number of double precision is written with the fewest decimal digits that read back as it,
and of those the nearest. Candidates are the two neighbours of the number on each decimal grid, and
all tests are exact.
-/

namespace DiscussionBoard.Decimal

/-- The number `significand * 2 ^ exponent`. -/
structure Binary where
  significand : Nat
  exponent : Int
deriving DecidableEq

/-- The number `digits * 10 ^ exponent`. -/
structure Scaled where
  digits : Nat
  exponent : Int
deriving DecidableEq

/-- The magnitude of a finite number of double precision. -/
def Binary.ofBits (bits : UInt64) : Binary :=
  let fraction : Nat := bits.toNat % (1 <<< 52)
  let raised : Nat := (bits.toNat >>> 52) % (1 <<< 11)
  if raised = 0 then ⟨fraction, -1074⟩ else ⟨(1 <<< 52) + fraction, (raised : Int) - 1075⟩

/-- Binary numbers in units of `2 ^ -1100 * 10 ^ -400`. -/
def Binary.units (number : Binary) : Nat :=
  (number.significand <<< (number.exponent + 1100).toNat) * Nat.pow 10 400

/-- Decimal numbers in the same units. -/
def Scaled.units (number : Scaled) : Nat :=
  (number.digits * Nat.pow 10 (number.exponent + 400).toNat) <<< 1100

/-- The midpoint to the next lower number of double precision. Below a power of two the numbers are
twice as dense. -/
def Binary.low (number : Binary) : Binary :=
  if number.significand = 1 <<< 52 ∧ number.exponent ≠ -1074 then
    ⟨4 * number.significand - 1, number.exponent - 2⟩
  else ⟨2 * number.significand - 1, number.exponent - 1⟩

/-- The midpoint to the next higher number of double precision. -/
def Binary.high (number : Binary) : Binary :=
  ⟨2 * number.significand + 1, number.exponent - 1⟩

/-- Whether a decimal reads back as the number: a midpoint goes to the even significand. -/
def Binary.readsBack (number : Binary) (decimal : Scaled) : Bool :=
  if number.significand % 2 = 0 then
    number.low.units ≤ decimal.units ∧ decimal.units ≤ number.high.units
  else number.low.units < decimal.units ∧ decimal.units < number.high.units

/-- Of the two neighbours on a grid, the nearer one that reads back. -/
def Binary.onGrid? (number : Binary) (exponent : Int) : Option Scaled :=
  let below : Scaled := ⟨number.units / (Scaled.mk 1 exponent).units, exponent⟩
  let above : Scaled := ⟨below.digits + 1, exponent⟩
  match number.readsBack below, number.readsBack above with
  | true, true =>
    if above.units - number.units < number.units - below.units then some above else some below
  | true, false => some below
  | false, true => some above
  | false, false => none

/-- The least power of ten above the number, as an exponent. -/
def Binary.magnitude (number : Binary) : Int :=
  (((List.range 660).map fun step => Int.ofNat step - 340).find? fun exponent =>
    number.units < (Scaled.mk 1 exponent).units).getD 320

/-- Drops a last digit zero, which stands where a candidate rolled over to the next power of ten. -/
def Scaled.trimmed (number : Scaled) : Scaled :=
  if number.digits % 10 = 0 then ⟨number.digits / 10, number.exponent + 1⟩ else number

/-- The shortest decimal that reads back as a number other than zero. -/
def Binary.shortest (number : Binary) : Scaled :=
  (((List.range 17).findSome? fun count =>
    number.onGrid? (number.magnitude - (count + 1 : Nat))).getD ⟨0, 0⟩).trimmed

/-- Positional notation, without a point where there is no fraction. -/
def Scaled.positional (number : Scaled) : String :=
  let digits := Nat.toDigits 10 number.digits
  if 0 ≤ number.exponent then
    String.ofList (digits ++ List.replicate number.exponent.toNat '0')
  else
    let places := (- number.exponent).toNat
    let padded := List.replicate (places + 1 - digits.length) '0' ++ digits
    String.ofList
      (padded.take (padded.length - places) ++ '.' :: padded.drop (padded.length - places))

/-- The text of a number of double precision. -/
def ofFloat (value : Float) : String :=
  if value.isNaN then "NaN"
  else
    let sign := if value.toBits ≥ 0x8000000000000000 then "-" else ""
    if value.isInf then sign ++ "inf"
    else
      let number := Binary.ofBits value.toBits
      if number.significand = 0 then sign ++ "0" else sign ++ number.shortest.positional

/-- The nearest number of double precision to `digits * 10 ^ exponent`, infinite where that is out
of range. -/
def toFloat (digits : Nat) (exponent : Int) : Float :=
  let magnitude := (Nat.toDigits 10 digits).length + exponent
  if digits = 0 ∨ magnitude < -400 then 0
  else if 400 < magnitude then 1 / 0
  else if exponent < 0 then Float.ofScientific digits true exponent.natAbs
  else Float.ofScientific digits false exponent.natAbs

end DiscussionBoard.Decimal
