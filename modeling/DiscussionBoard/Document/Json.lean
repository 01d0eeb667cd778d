import DiscussionBoard.Decimal.Stepwise
import DiscussionBoard.Document
import DiscussionBoard.Text.Numeral

/-!
# JSON

Reading and writing documents as JSON. A number without fraction and exponent that fits 64 bits is
an integer and any other is a number of double precision, which must be finite and is made in steps.
Of two members with one name the later one counts.
-/

namespace DiscussionBoard.Document.Json

def skipBlanks (chars : List Char) : List Char :=
  chars.dropWhile fun c => c ∈ [' ', '\t', '\n', '\r']

/-- The code unit after `\u`. -/
def unit? (chars : List Char) : Option (Nat × List Char) :=
  if 4 ≤ chars.length then
    (Numeral.read? 16 (chars.take 4)).map fun value => (value, chars.drop 4)
  else none

/-- The character after `\u`. A high surrogate needs a low one after it, and a low one alone is
refused. -/
def escaped? (chars : List Char) : Option (Char × List Char) := do
  let (high, chars) ← unit? chars
  if 0xD800 ≤ high ∧ high < 0xDC00 then
    match chars with
    | '\\' :: 'u' :: chars =>
      let (low, chars) ← unit? chars
      if 0xDC00 ≤ low ∧ low < 0xE000 then
        some (Char.ofNat (0x10000 + (high - 0xD800) * 0x400 + (low - 0xDC00)), chars)
      else none
    | _ => none
  else if 0xDC00 ≤ high ∧ high < 0xE000 then none
  else some (Char.ofNat high, chars)

def plainEscape? : Char → Option Char
  | '"' => some '"'
  | '\\' => some '\\'
  | '/' => some '/'
  | 'b' => some '\x08'
  | 'f' => some '\x0c'
  | 'n' => some '\n'
  | 'r' => some '\r'
  | 't' => some '\t'
  | _ => none

/-- The rest of a string and what follows it, after `done`, which is kept in reverse. -/
def string? : Nat → List Char → List Char → Option (String × List Char)
  | 0, _, _ => none
  | _ + 1, _, [] => none
  | _ + 1, done, '"' :: rest => some (String.ofList done.reverse, rest)
  | fuel + 1, done, '\\' :: 'u' :: rest => do
    let (c, rest) ← escaped? rest
    string? fuel (c :: done) rest
  | fuel + 1, done, '\\' :: c :: rest => do
    let c ← plainEscape? c
    string? fuel (c :: done) rest
  | fuel + 1, done, c :: rest =>
    if c = '\\' ∨ c.toNat < 0x20 then none else string? fuel (c :: done) rest

/-- The digits of an exponent, with its sign. -/
def exponent? (chars : List Char) : Option (Int × List Char) :=
  let (negative, chars) := match chars with
    | '-' :: rest => (true, rest)
    | '+' :: rest => (false, rest)
    | chars => (false, chars)
  let digits := chars.takeWhile Char.isDigit
  if digits = [] then none
  else do
    let value ← Numeral.read? 10 digits
    some (if negative then -(value : Int) else value, chars.dropWhile Char.isDigit)

/-- The number with the given sign, whole digits, fraction digits and exponent. -/
def decimal? (negative : Bool) (whole fraction : List Char) (exponent : Int) : Option Document := do
  let number := (Decimal.Scaled.mk 0 0).appendWhole (← whole.mapM Numeral.digit?)
  let number := number.appendFraction (← fraction.mapM Numeral.digit?)
  let value ← Decimal.Scaled.toFloat? ⟨number.digits, number.exponent + exponent⟩
  some (.float (if negative then -value else value))

def integer? (negative : Bool) (whole : List Char) : Option Document := do
  let value ← Numeral.read? 10 whole
  if negative ∧ 0 < value ∧ value ≤ 0x8000000000000000 then some (.int (-value))
  else if ¬ negative ∧ value < 0x10000000000000000 then some (.int value)
  else decimal? negative whole [] 0

def number? (chars : List Char) : Option (Document × List Char) := do
  let (negative, chars) := match chars with
    | '-' :: rest => (true, rest)
    | chars => (false, chars)
  let whole := chars.takeWhile Char.isDigit
  let chars := chars.dropWhile Char.isDigit
  if whole = [] ∨ whole.head? = some '0' ∧ 1 < whole.length then none
  let (fraction, chars) ← match chars with
    | '.' :: rest =>
      let fraction := rest.takeWhile Char.isDigit
      if fraction = [] then none else some (some fraction, rest.dropWhile Char.isDigit)
    | chars => some (none, chars)
  let (exponent, chars) ← match chars with
    | 'e' :: rest | 'E' :: rest => (exponent? rest).map fun (value, rest) => (some value, rest)
    | chars => some (none, chars)
  if fraction.isNone ∧ exponent.isNone then
    (integer? negative whole).map (·, chars)
  else
    (decimal? negative whole (fraction.getD []) (exponent.getD 0)).map (·, chars)

mutual

/-- A value and what follows it. Containers may be nested `depth` deep. Fuel of more than twice the
length is enough, since one of any two steps in a row takes a character. -/
def value? (depth : Nat) : Nat → List Char → Option (Document × List Char)
  | 0, _ => none
  | fuel + 1, chars =>
    match skipBlanks chars with
    | 'n' :: 'u' :: 'l' :: 'l' :: rest => some (.null, rest)
    | 't' :: 'r' :: 'u' :: 'e' :: rest => some (.bool true, rest)
    | 'f' :: 'a' :: 'l' :: 's' :: 'e' :: rest => some (.bool false, rest)
    | '"' :: rest => (string? fuel [] rest).map fun (value, rest) => (.text value, rest)
    | '[' :: rest =>
      if depth = 0 then none
      else match skipBlanks rest with
        | ']' :: rest => some (.list [], rest)
        | rest => items? (depth - 1) fuel [] rest
    | '\x7b' :: rest =>
      if depth = 0 then none
      else match skipBlanks rest with
        | '\x7d' :: rest => some (.table [], rest)
        | rest => members? (depth - 1) fuel [] rest
    | chars => number? chars

/-- The rest of a list after `done`, which is kept in reverse. -/
def items? (depth : Nat) : Nat → List Document → List Char → Option (Document × List Char)
  | 0, _, _ => none
  | fuel + 1, done, chars => do
    let (item, chars) ← value? depth fuel chars
    match skipBlanks chars with
    | ',' :: rest => items? depth fuel (item :: done) rest
    | ']' :: rest => some (.list (item :: done).reverse, rest)
    | _ => none

/-- The rest of a table after the members read so far. -/
def members? (depth : Nat) :
    Nat → List (String × Document) → List Char → Option (Document × List Char)
  | 0, _, _ => none
  | fuel + 1, done, chars => do
    let '"' :: chars := skipBlanks chars | none
    let (name, chars) ← string? fuel [] chars
    let ':' :: chars := skipBlanks chars | none
    let (value, chars) ← value? depth fuel chars
    let done := assign name value done
    match skipBlanks chars with
    | ',' :: rest => members? depth fuel done rest
    | '\x7d' :: rest => some (.table done, rest)
    | _ => none

end

/-- Containers nested deeper than this are refused. -/
def maxDepth : Nat := 127

def read? (text : String) : Option Document := do
  let chars := text.toList
  let (value, rest) ← value? maxDepth (2 * chars.length + 2) chars
  if skipBlanks rest = [] then some value else none

def escape (c : Char) : List Char :=
  if c = '"' then ['\\', '"']
  else if c = '\\' then ['\\', '\\']
  else if c = '\n' then ['\\', 'n']
  else if c = '\r' then ['\\', 'r']
  else if c = '\t' then ['\\', 't']
  else if c.toNat < 0x20 then '\\' :: 'u' :: Numeral.write 16 4 c.toNat
  else [c]

def quote (text : String) : String :=
  String.ofList ('"' :: (text.toList.flatMap escape ++ ['"']))

mutual

def write : Document → String
  | .null => "null"
  | .bool true => "true"
  | .bool false => "false"
  | .int value => s!"{value}"
  | .float value => Decimal.ofFloat value
  | .text value => quote value
  | .list items => "[" ++ String.intercalate "," (writeItems items) ++ "]"
  | .table fields => "\x7b" ++ String.intercalate "," (writeFields fields) ++ "\x7d"

def writeItems : List Document → List String
  | [] => []
  | item :: rest => write item :: writeItems rest

def writeFields : List (String × Document) → List String
  | [] => []
  | (name, value) :: rest => (quote name ++ ":" ++ write value) :: writeFields rest

end

end DiscussionBoard.Document.Json
