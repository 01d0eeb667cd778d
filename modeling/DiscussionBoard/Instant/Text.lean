import DiscussionBoard.Instant
import DiscussionBoard.Instant.Calendar
import DiscussionBoard.Text.Numeral

/-!
# The written form of an instant

RFC 3339. An instant is written in universal time with `Z`, and with no fraction or with the fewest
of 3, 6 or 9 fraction digits that hold it; for people to read it has a space and `UTC` instead. Reading takes any offset in whole minutes, a space or a
small letter where the format has `T` or `Z`, and digits past the ninth of a fraction are dropped.
-/

namespace DiscussionBoard.Instant

/-- A number of exactly `width` decimal digits, and what follows it. -/
def field? (width : Nat) (chars : List Char) : Option (Nat × List Char) :=
  if width ≤ chars.length then
    (Numeral.read? 10 (chars.take width)).map fun value => (value, chars.drop width)
  else none

/-- What follows one of the allowed characters. -/
def mark? (allowed : List Char) : List Char → Option (List Char)
  | [] => none
  | c :: rest => if c ∈ allowed then some rest else none

/-- The nanoseconds of a fraction, if there is one, and what follows it. -/
def fraction? : List Char → Option (Nat × List Char)
  | '.' :: rest =>
    let digits := rest.takeWhile Char.isDigit
    if digits = [] then none
    else
      (Numeral.read? 10 ((digits ++ List.replicate 9 '0').take 9)).map fun nanos =>
        (nanos, rest.dropWhile Char.isDigit)
  | chars => some (0, chars)

/-- Seconds east of universal time, for `hh:mm` up to the end of the text. -/
def distance? (chars : List Char) : Option Int := do
  let (hours, chars) ← field? 2 chars
  let chars ← mark? [':'] chars
  let (minutes, chars) ← field? 2 chars
  if chars = [] ∧ hours < 24 ∧ minutes < 60 then some (hours * 3600 + minutes * 60) else none

/-- The offset that ends the text. A minus is a hyphen or U+2212. -/
def offset? : List Char → Option Int
  | ['Z'] => some 0
  | ['z'] => some 0
  | '+' :: rest => distance? rest
  | '-' :: rest => (distance? rest).map (- ·)
  | '\u2212' :: rest => (distance? rest).map (- ·)
  | _ => none

/-- The instant of a clock reading at an offset. The second 60 is the leap second after 59. -/
def ofClock? (date : Date) (hour minute second nanos : Nat) (offset : Int) : Option Instant :=
  if h : date.Valid ∧ hour < 24 ∧ minute < 60 ∧ second ≤ 60 ∧ nanos < 1000000000 then
    some
      { seconds := date.toDays * 86400 + hour * 3600 + minute * 60 + (min second 59 : Nat) - offset
        nanos := nanos + if second = 60 then 1000000000 else 0
        nanos_lt := by split <;> omega }
  else none

def ofChars? (chars : List Char) : Option Instant := do
  let (year, chars) ← field? 4 chars
  let chars ← mark? ['-'] chars
  let (month, chars) ← field? 2 chars
  let chars ← mark? ['-'] chars
  let (day, chars) ← field? 2 chars
  let chars ← mark? ['T', 't', ' '] chars
  let (hour, chars) ← field? 2 chars
  let chars ← mark? [':'] chars
  let (minute, chars) ← field? 2 chars
  let chars ← mark? [':'] chars
  let (second, chars) ← field? 2 chars
  let (nanos, chars) ← fraction? chars
  let offset ← offset? chars
  ofClock? ⟨year, month, day⟩ hour minute second nanos offset

def ofString? (text : String) : Option Instant :=
  ofChars? text.toList

/-- Four digits, or a sign and at least four outside the years 0 to 9999. -/
def yearChars (year : Int) : List Char :=
  if 0 ≤ year ∧ year ≤ 9999 then Numeral.write 10 4 year.toNat
  else
    let digits := Nat.toDigits 10 year.natAbs
    (if year < 0 then '-' else '+') :: (List.replicate (4 - digits.length) '0' ++ digits)

def fractionChars (nanos : Nat) : List Char :=
  if nanos = 0 then []
  else if nanos % 1000000 = 0 then '.' :: Numeral.write 10 3 (nanos / 1000000)
  else if nanos % 1000 = 0 then '.' :: Numeral.write 10 6 (nanos / 1000)
  else '.' :: Numeral.write 10 9 nanos

/-- The date and the time of day with a mark between them, and then the zone. -/
def charsWith (mark : Char) (zone : List Char) (instant : Instant) : List Char :=
  let date := Date.ofDays (instant.seconds / 86400)
  let second := (instant.seconds % 86400).toNat
  let leap := instant.nanos / 1000000000
  yearChars date.year ++ '-' :: (Numeral.write 10 2 date.month ++ '-' ::
    (Numeral.write 10 2 date.day ++ mark :: (Numeral.write 10 2 (second / 3600) ++ ':' ::
    (Numeral.write 10 2 (second / 60 % 60) ++ ':' :: (Numeral.write 10 2 (second % 60 + leap) ++
    (fractionChars (instant.nanos % 1000000000) ++ zone))))))

def toChars : Instant → List Char :=
  charsWith 'T' ['Z']

def toString (instant : Instant) : String :=
  String.ofList instant.toChars

/-- The form for people to read, as in `2025-06-15 15:06:40 UTC`. -/
def display (instant : Instant) : String :=
  String.ofList (instant.charsWith ' ' " UTC".toList)

instance : ToString Instant := ⟨Instant.toString⟩

theorem field?_write_append {width value : Nat} (hvalue : value < Nat.pow 10 width)
    (rest : List Char) :
    field? width (Numeral.write 10 width value ++ rest) = some (value, rest) := by
  have hlength := Numeral.length_write 10 width value
  have htake :
      (Numeral.write 10 width value ++ rest).take width = Numeral.write 10 width value := by
    rw [List.take_append_of_le_length (by omega), List.take_of_length_le (by omega)]
  have hdrop : (Numeral.write 10 width value ++ rest).drop width = rest := by
    rw [List.drop_append_of_le_length (by omega), List.drop_of_length_le (by omega)]
    rfl
  simp [field?, htake, hdrop, hlength, Numeral.read?_write (by decide : 0 < 10) (by decide) hvalue]

theorem mark?_cons {allowed : List Char} {c : Char} (hc : c ∈ allowed) (rest : List Char) :
    mark? allowed (c :: rest) = some rest := by
  simp [mark?, hc]

end DiscussionBoard.Instant
