import DiscussionBoard.Text.Alphanumeric
import DiscussionBoard.Text.Blank

/-!
# Variables from a file

A `.env` file sets variables line by line. Quotes, a backslash at the end of a line and blanks there
join lines; a later line may use earlier variables. A variable that is set already stays, and the
first malformed line ends the reading.
-/

namespace DiscussionBoard.Settings.Dotenv

/-- Where the scan for the end of an entry stands. -/
inductive Scan
  | complete | escape | strong | strongEscape | weak | weakEscape | blank | comment
deriving DecidableEq

namespace Scan

/-- A quote or a backslash opens something wherever nothing is open. -/
def opening : Char → Scan
  | '\\' => escape
  | '"' => weak
  | '\'' => strong
  | _ => complete

/-- A comment starts only right after a single blank. -/
def next (scan : Scan) (c : Char) : Scan :=
  match scan with
  | blank => if c = '#' then comment else opening c
  | complete => if Text.isBlank c && c ≠ '\n' && c ≠ '\r' then blank else opening c
  | escape => complete
  | weak => if c = '\\' then weakEscape else if c = '"' then complete else weak
  | weakEscape => weak
  | strong => if c = '\\' then strongEscape else if c = '\'' then complete else strong
  | strongEscape => strong
  | comment => comment

/-- Scans a line up to a comment, and gives what stands before it. -/
def line : Scan → List Char → Scan × List Char
  | scan, [] => (scan, [])
  | scan, c :: rest =>
    match scan.next c with
    | comment => (comment, [])
    | next =>
      let (last, front) := line next rest
      (last, c :: front)

end Scan

/-- The lines of a text, each with its line break. -/
def splitLines : List Char → List (List Char)
  | [] => []
  | c :: rest =>
    if c = '\n' then ['\n'] :: splitLines rest
    else match splitLines rest with
      | [] => [[c]]
      | first :: others => (c :: first) :: others

/-- Joins lines to entries, after the open front of an entry. An entry that stays open is
malformed. -/
def entries : List Char → Scan → List (List Char) → List (Option (List Char))
  | _, scan, [] => if scan = .complete then [] else [none]
  | front, scan, line :: rest =>
    if (Text.skipBlanks (front ++ line)).head? = some '#' then
      some [] :: entries [] .complete rest
    else
      let (last, kept) := scan.line line
      if last = .complete ∨ last = .comment then
        some (front ++ kept) :: entries [] .complete rest
      else entries (front ++ kept) last rest

/-- The characters that a backslash may stand before, and what they then mean. -/
def escape? : Char → Option Char
  | 'n' => some '\n'
  | c => if c ∈ ['\\', '\'', '"', '$', ' '] then some c else none

def valueOf (vars : List (String × String)) (name : List Char) : List Char :=
  match vars.find? fun entry => entry.1.toList = name with
  | some entry => entry.2.toList
  | none => []

/-- Whether only blanks or a comment follow a value. -/
def isTail : List Char → Bool
  | [] => true
  | c :: rest => if c = ' ' ∨ c = '\t' then isTail rest else c = '#'

mutual

/-- The rest of a value, outside single quotes. -/
def value? (vars : List (String × String)) (quoted : Bool) : List Char → Option (List Char)
  | [] => if quoted then none else some []
  | ['\\'] => if quoted then none else some []
  | '\\' :: c :: rest => do
    let c ← escape? c
    let others ← value? vars quoted rest
    some (c :: others)
  | c :: rest =>
    if c = '$' then named? vars quoted [] rest
    else if c = '"' then value? vars (!quoted) rest
    else if quoted then (value? vars quoted rest).map (c :: ·)
    else if c = '\'' then literal? vars rest
    else if c = ' ' ∨ c = '\t' then if isTail rest then some [] else none
    else (value? vars quoted rest).map (c :: ·)

/-- The rest of a value inside single quotes, where every character stands for itself. -/
def literal? (vars : List (String × String)) : List Char → Option (List Char)
  | [] => none
  | c :: rest =>
    if c = '\'' then value? vars false rest else (literal? vars rest).map (c :: ·)

/-- The rest of a value after a dollar and the front of a name of letters and numbers. The character
after the name stands for itself, unless it is a dollar. -/
def named? (vars : List (String × String)) (quoted : Bool) (name : List Char) :
    List Char → Option (List Char)
  | [] => if quoted then none else some (valueOf vars name)
  | c :: rest =>
    if Text.isAlphanumeric c then named? vars quoted (name ++ [c]) rest
    else if c = '\x7b' ∧ name = [] then braced? vars quoted [] rest
    else if c = '$' then (named? vars quoted [] rest).map (valueOf vars name ++ ·)
    else (value? vars quoted rest).map fun others => valueOf vars name ++ c :: others

/-- The rest of a value inside the braces of a name. -/
def braced? (vars : List (String × String)) (quoted : Bool) (name : List Char) :
    List Char → Option (List Char)
  | [] => none
  | c :: rest =>
    if c = '\x7d' then (value? vars quoted rest).map (valueOf vars name ++ ·)
    else braced? vars quoted (name ++ [c]) rest

end

def isNameStart (c : Char) : Bool :=
  c.isAlpha || c = '_'

def isNameChar (c : Char) : Bool :=
  c.isAlphanum || c = '_' || c = '.'

def name? (chars : List Char) : Option (List Char × List Char) :=
  if chars.head?.any isNameStart then
    some (chars.takeWhile isNameChar, Text.skipBlanks (chars.dropWhile isNameChar))
  else none

/-- The name that an entry sets, and what follows the equals sign. -/
def assigned? (chars : List Char) : Option (List Char × List Char) := do
  match ← name? chars with
  | (name, '=' :: rest) => some (name, rest)
  | (name, rest) =>
    if name = "export".toList then
      match ← name? rest with
      | (name, '=' :: rest) => some (name, rest)
      | _ => none
    else none

/-- What an entry sets, if anything; fails where it is malformed. -/
def entry? (vars : List (String × String)) (chars : List Char) :
    Option (Option (String × String)) :=
  let chars := Text.skipBlanks (Text.dropTrailingBlanks chars)
  if chars = [] ∨ chars.head? = some '#' then some none
  else do
    let (name, rest) ← assigned? chars
    let rest := Text.skipBlanks rest
    if rest = [] ∨ rest.head? = some '#' then some (some (String.ofList name, ""))
    else do
      let value ← value? vars false rest
      some (some (String.ofList name, String.ofList value))

def isSet (vars : List (String × String)) (name : String) : Bool :=
  vars.any fun entry => entry.1 = name

/-- Adds what the entries set, up to the first malformed one. -/
def apply (vars : List (String × String)) :
    List (Option (List Char)) → List (String × String)
  | [] => vars
  | none :: _ => vars
  | some chars :: rest =>
    match entry? vars chars with
    | none => vars
    | some none => apply vars rest
    | some (some (name, value)) =>
      if isSet vars name then apply vars rest
      else apply (vars ++ [(name, value)]) rest

def dropMark : List Char → List Char
  | '\ufeff' :: rest => rest
  | chars => chars

/-- The variables with those that a file adds. -/
def load (vars : List (String × String)) (content : String) : List (String × String) :=
  apply vars (entries [] .complete (splitLines (dropMark content.toList)))

end DiscussionBoard.Settings.Dotenv
