import DiscussionBoard.Document
import DiscussionBoard.Instant.Text

/-!
# TOML dates and times

A date or time is read as a text in its normal form. It is written plainly, or as a text under a
certain name in a table.
-/

namespace DiscussionBoard.Document.Toml

/-- A date in its normal form, and what follows it. -/
def date? (chars : List Char) : Option (List Char × List Char) := do
  let (year, rest) ← Instant.field? 4 chars
  let rest ← Instant.mark? ['-'] rest
  let (month, rest) ← Instant.field? 2 rest
  let rest ← Instant.mark? ['-'] rest
  let (day, rest) ← Instant.field? 2 rest
  if (Date.mk year month day).Valid then some (chars.take 10, rest) else none

/-- A fraction in its normal form, with at most nine digits and no needless zero at its end. It may
be missing. -/
def fraction? : List Char → Option (List Char × List Char)
  | '.' :: rest =>
    let digits := rest.takeWhile Char.isDigit
    let kept := ((digits.take 9).reverse.dropWhile (· = '0')).reverse
    if digits = [] then none
    else some ('.' :: (if kept = [] then ['0'] else kept), rest.drop digits.length)
  | chars => some ([], chars)

/-- The seconds of a time of day in their normal form. They may be missing. -/
def seconds? : List Char → Option (List Char × List Char)
  | ':' :: chars => do
    let (second, rest) ← Instant.field? 2 chars
    let (fraction, rest) ← fraction? rest
    if second ≤ 60 then some (':' :: (chars.take 2 ++ fraction), rest) else none
  | chars => some ([], chars)

/-- A time of day in its normal form. -/
def time? (chars : List Char) : Option (List Char × List Char) := do
  let (hour, rest) ← Instant.field? 2 chars
  let rest ← Instant.mark? [':'] rest
  let (minute, rest) ← Instant.field? 2 rest
  let (seconds, rest) ← seconds? rest
  if hour < 24 ∧ minute < 60 then some (chars.take 5 ++ seconds, rest) else none

/-- The offset that ends a date and time, in its normal form, which may be missing. -/
def zone? : List Char → Option (List Char)
  | [] => some []
  | ['Z'] | ['z'] => some ['Z']
  | '+' :: rest => (Instant.distance? rest).map fun _ => '+' :: rest
  | '-' :: rest => (Instant.distance? rest).map fun distance =>
    (if distance = 0 then '+' else '-') :: rest
  | _ => none

def moment? (chars : List Char) : Option Document := do
  match date? chars with
  | some (date, []) => some (.text (String.ofList date))
  | some (date, rest) => do
    let rest ← Instant.mark? ['T', 't', ' '] rest
    let (time, rest) ← time? rest
    let zone ← zone? rest
    some (.text (String.ofList (date ++ 'T' :: (time ++ zone))))
  | none =>
    match time? chars with
    | some (time, []) => some (.text (String.ofList time))
    | _ => none

/-- The name under which a table can hold a date or time as a text. -/
def momentName : String := "$__toml_private_datetime"

/-- The value that stands for a whole table, if its first name in order is `momentName`. -/
def momentIn? (fields : List (String × Document)) : Option Document :=
  if fields.all fun field => momentName ≤ field.1 then lookup momentName fields else none

mutual

/-- Puts dates and times in the place of the tables that hold them, unless one is malformed. -/
def settle? : Document → Option Document
  | .table fields =>
    match momentIn? fields with
    | some (.text moment) => moment? moment.toList
    | some _ => none
    | none => (settleFields? fields).map .table
  | .list items => (settleItems? items).map .list
  | document => some document

def settleFields? : List (String × Document) → Option (List (String × Document))
  | [] => some []
  | (name, document) :: rest => do
    let document ← settle? document
    let rest ← settleFields? rest
    some ((name, document) :: rest)

def settleItems? : List Document → Option (List Document)
  | [] => some []
  | document :: rest => do
    let document ← settle? document
    let rest ← settleItems? rest
    some (document :: rest)

end

end DiscussionBoard.Document.Toml
