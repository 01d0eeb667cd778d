import DiscussionBoard.Instant.Range
import DiscussionBoard.Instant.Text
import DiscussionBoard.Text.Blank

/-!
# Relaxed forms of an instant

Records take instants in forms that RFC 3339 does not allow: blanks before a part, parts of fewer
digits, years with a sign, and offsets without a colon or by the name `UTC`.
-/

namespace DiscussionBoard.Instant

/-- A number of at most `width` digits. -/
def shortField? (width : Nat) (chars : List Char) : Option (Nat × List Char) :=
  let digits := (chars.take width).takeWhile Char.isDigit
  if digits = [] then none
  else (Numeral.read? 10 digits).map fun value => (value, chars.drop digits.length)

/-- A number of at most two digits after blanks. -/
def part? (chars : List Char) : Option (Nat × List Char) :=
  shortField? 2 (Text.skipBlanks chars)

/-- A year of at most four digits, or of any number of digits after a sign. -/
def year? (chars : List Char) : Option (Int × List Char) :=
  match Text.skipBlanks chars with
  | '-' :: rest => (shortField? rest.length rest).map fun (value, rest) => (-(value : Int), rest)
  | '+' :: rest => (shortField? rest.length rest).map fun (value, rest) => (value, rest)
  | chars => (shortField? 4 chars).map fun (value, rest) => (value, rest)

/-- Seconds east of universal time, with colons and blanks between hours and minutes or none. -/
def relaxedDistance? (chars : List Char) : Option Int := do
  let (hours, chars) ← field? 2 chars
  let (minutes, chars) ← field? 2 (chars.dropWhile fun c => c = ':' || Text.isBlank c)
  if Text.skipBlanks chars = [] ∧ hours < 24 ∧ minutes < 60 then
    some (hours * 3600 + minutes * 60)
  else none

def universalName : List Char := "utc".toList

def relaxedOffset? (chars : List Char) : Option Int :=
  match chars with
  | '+' :: rest => relaxedDistance? rest
  | '-' :: rest | '\u2212' :: rest => (relaxedDistance? rest).map (- ·)
  | _ =>
    let word := (Text.dropTrailingBlanks chars).map Char.toLower
    if word = ['z'] ∨ word = universalName then some 0 else none

def ofRelaxedChars? (chars : List Char) : Option Instant := do
  let (year, chars) ← year? chars
  let chars ← mark? ['-'] (Text.skipBlanks chars)
  let (month, chars) ← part? chars
  let chars ← mark? ['-'] (Text.skipBlanks chars)
  let (day, chars) ← part? chars
  let chars ← mark? ['T', 't', ' '] chars
  let (hour, chars) ← part? chars
  let chars ← mark? [':'] (Text.skipBlanks chars)
  let (minute, chars) ← part? chars
  let chars ← mark? [':'] (Text.skipBlanks chars)
  let (second, chars) ← part? chars
  let (nanos, chars) ← fraction? chars
  let offset ← relaxedOffset? (Text.skipBlanks chars)
  if firstYear ≤ year ∧ year ≤ lastYear then
    (ofClock? ⟨year, month, day⟩ hour minute second nanos offset).filter (·.IsReckoned)
  else none

/-- The instant of a text in the form of RFC 3339, or else in a relaxed form. -/
def ofRelaxedString? (text : String) : Option Instant :=
  (ofString? text).or (ofRelaxedChars? text.toList)

end DiscussionBoard.Instant
