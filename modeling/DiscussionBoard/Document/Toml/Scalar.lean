import DiscussionBoard.Decimal.Shortest
import DiscussionBoard.Document.Toml.Moment
import DiscussionBoard.Text.Numeral

/-!
# TOML scalars

Strings, numbers, dates and times of TOML 1.1.
-/

namespace DiscussionBoard.Document.Toml

/-- Whether a character may stand in a string or comment on one line. -/
def isPrintable (c : Char) : Bool :=
  c = '\t' || 0x20 ≤ c.toNat && c.toNat ≠ 0x7f

def codePoint? (width : Nat) (chars : List Char) : Option (Char × List Char) := do
  if chars.length < width then none
  let value ← Numeral.read? 16 (chars.take width)
  if value < 0xD800 ∨ 0xE000 ≤ value ∧ value < 0x110000 then
    some (Char.ofNat value, chars.drop width)
  else none

/-- The character after a backslash. -/
def escape? : List Char → Option (Char × List Char)
  | 'b' :: rest => some ('\x08', rest)
  | 't' :: rest => some ('\t', rest)
  | 'n' :: rest => some ('\n', rest)
  | 'f' :: rest => some ('\x0c', rest)
  | 'r' :: rest => some ('\r', rest)
  | 'e' :: rest => some ('\x1b', rest)
  | '"' :: rest => some ('"', rest)
  | '\\' :: rest => some ('\\', rest)
  | 'x' :: rest => codePoint? 2 rest
  | 'u' :: rest => codePoint? 4 rest
  | 'U' :: rest => codePoint? 8 rest
  | _ => none

/-- The rest of a string in double quotes, after `done` in reverse. -/
def basic? : Nat → List Char → List Char → Option (String × List Char)
  | 0, _, _ => none
  | _ + 1, _, [] => none
  | _ + 1, done, '"' :: rest => some (String.ofList done.reverse, rest)
  | fuel + 1, done, '\\' :: rest => do
    let (c, rest) ← escape? rest
    basic? fuel (c :: done) rest
  | fuel + 1, done, c :: rest => if isPrintable c then basic? fuel (c :: done) rest else none

/-- A string in single quotes, taken as it is. -/
def literal? (chars : List Char) : Option (String × List Char) :=
  let body := chars.takeWhile (· ≠ '\'')
  match chars.drop body.length with
  | '\'' :: rest => if body.all isPrintable then some (String.ofList body, rest) else none
  | _ => none

/-- Drops the line break that directly follows an opening of three quotes. -/
def dropFirstBreak : List Char → List Char
  | '\n' :: rest => rest
  | '\r' :: '\n' :: rest => rest
  | chars => chars

/-- Drops blanks and line breaks. -/
def skipGap : List Char → List Char
  | ' ' :: rest | '\t' :: rest | '\n' :: rest => skipGap rest
  | '\r' :: '\n' :: rest => skipGap rest
  | chars => chars

/-- What follows a backslash that ends its line: all blanks and breaks go. -/
def continued? (chars : List Char) : Option (List Char) :=
  match chars.dropWhile (fun c => c = ' ' ∨ c = '\t') with
  | '\n' :: rest => some (skipGap rest)
  | '\r' :: '\n' :: rest => some (skipGap rest)
  | _ => none

/-- The rest of a string of several lines between three of the given quotes. Line breaks stay as they
are written, and the last two of up to five quotes at the end belong to the string. -/
def lines? (quote : Char) : Nat → List Char → List Char → Option (String × List Char)
  | 0, _, _ => none
  | _ + 1, _, [] => none
  | fuel + 1, done, c :: rest =>
    if c = quote then
      let run := ((c :: rest).takeWhile (· = quote)).length
      if 3 ≤ run then
        let inside := min run 5 - 3
        some (String.ofList (done.reverse ++ List.replicate inside quote),
          (c :: rest).drop (inside + 3))
      else lines? quote fuel (c :: done) rest
    else if c = '\\' ∧ quote = '"' then
      match continued? rest with
      | some rest => lines? quote fuel done rest
      | none => do
        let (c, rest) ← escape? rest
        lines? quote fuel (c :: done) rest
    else if c = '\n' then lines? quote fuel ('\n' :: done) rest
    else if c = '\r' then
      match rest with
      | '\n' :: rest => lines? quote fuel ('\n' :: '\r' :: done) rest
      | _ => none
    else if isPrintable c then lines? quote fuel (c :: done) rest
    else none

def string? : List Char → Option (String × List Char)
  | '"' :: '"' :: '"' :: rest =>
    let rest := dropFirstBreak rest
    lines? '"' (rest.length + 1) [] rest
  | '\'' :: '\'' :: '\'' :: rest =>
    let rest := dropFirstBreak rest
    lines? '\'' (rest.length + 1) [] rest
  | '"' :: rest => basic? (rest.length + 1) [] rest
  | '\'' :: rest => literal? rest
  | _ => none

/-- Digits of a base with single underscores between them, without the underscores. -/
def grouped? (base : Nat) : List Char → Option (List Char)
  | [] => none
  | [c] => if (Numeral.read? base [c]).isSome then some [c] else none
  | c :: '_' :: rest =>
    if (Numeral.read? base [c]).isSome then (grouped? base rest).map (c :: ·) else none
  | c :: rest =>
    if (Numeral.read? base [c]).isSome then (grouped? base rest).map (c :: ·) else none

/-- Decimal digits that do not start with a needless zero. -/
def wholeDigits? (chars : List Char) : Option (List Char) := do
  let digits ← grouped? 10 chars
  if digits.head? = some '0' ∧ 1 < digits.length then none else some digits

def bounded? (value : Int) : Option Document :=
  if -0x8000000000000000 ≤ value ∧ value < 0x8000000000000000 then some (.int value) else none

def unsigned? (base : Nat) (chars : List Char) : Option Document := do
  let value ← Numeral.read? base (← grouped? base chars)
  bounded? value

/-- The sign of a number, and what follows it. -/
def signed : List Char → Bool × List Char
  | '-' :: rest => (true, rest)
  | '+' :: rest => (false, rest)
  | chars => (false, chars)

def integer? (chars : List Char) : Option Document := do
  let (negative, chars) := signed chars
  let value ← Numeral.read? 10 (← wholeDigits? chars)
  bounded? (if negative then -value else value)

/-- A number with a fraction, an exponent or both. -/
def float? (chars : List Char) : Option Document := do
  let (negative, chars) := signed chars
  let isMark (c : Char) : Bool := c = 'e' || c = 'E'
  if ¬ chars.any (fun c => c = '.' || isMark c) then none
  let mantissa := chars.takeWhile (!isMark ·)
  let exponent : Int ← match chars.drop mantissa.length with
    | [] => some 0
    | _ :: rest => do
      let (negative, digits) := signed rest
      let value ← Numeral.read? 10 (← grouped? 10 digits)
      some (if negative then -value else value)
  let whole ← wholeDigits? (mantissa.takeWhile (· ≠ '.'))
  let fraction ← match mantissa.dropWhile (· ≠ '.') with
    | [] => some []
    | _ :: rest => grouped? 10 rest
  let digits ← Numeral.read? 10 (whole ++ fraction)
  let value := Decimal.toFloat digits (exponent - fraction.length)
  if value.isInf then none else some (.float (if negative then -value else value))

def infinity : Float := 1 / 0

def notANumber : Float := 0 / 0

/-- A scalar that is no string, given as the whole of its characters. -/
def bare? (chars : List Char) : Option Document :=
  match chars with
  | ['t', 'r', 'u', 'e'] => some (.bool true)
  | ['f', 'a', 'l', 's', 'e'] => some (.bool false)
  | ['i', 'n', 'f'] | ['+', 'i', 'n', 'f'] => some (.float infinity)
  | ['-', 'i', 'n', 'f'] => some (.float (-infinity))
  | ['n', 'a', 'n'] | ['+', 'n', 'a', 'n'] | ['-', 'n', 'a', 'n'] => some (.float notANumber)
  | '0' :: 'x' :: digits => unsigned? 16 digits
  | '0' :: 'o' :: digits => unsigned? 8 digits
  | '0' :: 'b' :: digits => unsigned? 2 digits
  | chars => integer? chars <|> moment? chars <|> float? chars

end DiscussionBoard.Document.Toml
