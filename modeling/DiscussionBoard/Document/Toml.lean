import DiscussionBoard.Document.Toml.Moment
import DiscussionBoard.Document.Toml.Scalar
import DiscussionBoard.Document.Toml.Tree

/-!
# TOML

Reading TOML 1.1 documents. A document is its lines in order: headers open tables, and each other
line sets one key of the table opened last.
-/

namespace DiscussionBoard.Document.Toml

def skipSpaces (chars : List Char) : List Char :=
  chars.dropWhile fun c => c = ' ' ∨ c = '\t'

/-- Drops a comment up to the end of its line. -/
def skipComment? : List Char → Option (List Char)
  | '#' :: rest =>
    let body := rest.takeWhile fun c => c ≠ '\n'
    let body := if body.getLast? = some '\r' then body.dropLast else body
    if body.all isPrintable then some (rest.drop body.length) else none
  | chars => some chars

/-- What follows the end of a line, which may carry a comment. -/
def lineEnd? (chars : List Char) : Option (List Char) := do
  match ← skipComment? (skipSpaces chars) with
  | [] => some []
  | '\n' :: rest => some rest
  | '\r' :: '\n' :: rest => some rest
  | _ => none

/-- Drops spaces, line breaks and comments. -/
def skipLines? : Nat → List Char → Option (List Char)
  | 0, _ => none
  | fuel + 1, chars =>
    match skipSpaces chars with
    | '\n' :: rest => skipLines? fuel rest
    | '\r' :: '\n' :: rest => skipLines? fuel rest
    | '#' :: rest => do skipLines? fuel (← skipComment? ('#' :: rest))
    | chars => some chars

def isBareKey (c : Char) : Bool :=
  c.isAlphanum || c = '_' || c = '-'

def simpleKey? (chars : List Char) : Option (String × List Char) :=
  match chars with
  | '"' :: rest => basic? (rest.length + 1) [] rest
  | '\'' :: rest => literal? rest
  | chars =>
    let key := chars.takeWhile isBareKey
    if key = [] then none else some (String.ofList key, chars.dropWhile isBareKey)

/-- The parts of a dotted key in front of the last one, the last one, and what follows. -/
def keyParts? : Nat → List Char → Option (List String × String × List Char)
  | 0, _ => none
  | fuel + 1, chars => do
    let (first, rest) ← simpleKey? (skipSpaces chars)
    match skipSpaces rest with
    | '.' :: rest => do
      let (path, last, rest) ← keyParts? fuel rest
      some (first :: path, last, rest)
    | rest => some ([], first, rest)

/-- Containers nested deeper and dotted keys of more parts are refused. -/
def maxDepth : Nat := 80

def key? (chars : List Char) : Option (List String × String × List Char) := do
  let (path, last, rest) ← keyParts? (chars.length + 1) chars
  if path.length < maxDepth then some (path, last, rest) else none

def isBareScalar (c : Char) : Bool :=
  c.isAlphanum || c ∈ ['+', '-', '.', '_', ':']

/-- The characters of a scalar that is no string. A space may stand between a date and a time. -/
def bareScalar (chars : List Char) : List Char :=
  let token := chars.takeWhile isBareScalar
  match date? token, chars.drop token.length with
  | some (_, []), ' ' :: digit :: rest =>
    if digit.isDigit then token ++ ' ' :: (digit :: rest).takeWhile isBareScalar else token
  | _, _ => token

mutual

/-- A value and what follows it. Containers may be nested `depth` deep. -/
def value? (depth : Nat) : Nat → List Char → Option (Document × List Char)
  | 0, _ => none
  | fuel + 1, chars =>
    match chars with
    | '"' :: _ | '\'' :: _ => (string? chars).map fun (found, rest) => (.text found, rest)
    | '[' :: rest => do
      if depth = 0 then none
      let rest ← skipLines? (rest.length + 1) rest
      match rest with
      | ']' :: rest => some (.list [], rest)
      | rest => items? (depth - 1) fuel [] rest
    | '\x7b' :: rest => do
      if depth = 0 then none
      let rest ← skipLines? (rest.length + 1) rest
      match rest with
      | '\x7d' :: rest => some (.table [], rest)
      | rest => pairs? (depth - 1) fuel [] rest
    | chars => do
      let token := bareScalar chars
      let found ← bare? token
      some (found, chars.drop token.length)

/-- The rest of a list after `done` in reverse. A comma may end the list. -/
def items? (depth : Nat) : Nat → List Document → List Char → Option (Document × List Char)
  | 0, _, _ => none
  | fuel + 1, done, chars => do
    let (item, rest) ← value? depth fuel chars
    let rest ← skipLines? (rest.length + 1) rest
    match rest with
    | ',' :: rest => do
      let rest ← skipLines? (rest.length + 1) rest
      match rest with
      | ']' :: rest => some (.list (item :: done).reverse, rest)
      | rest => items? depth fuel (item :: done) rest
    | ']' :: rest => some (.list (item :: done).reverse, rest)
    | _ => none

/-- The rest of a table in braces. A comma may end the table, and an equals sign may stand on a line
of its own. -/
def pairs? (depth : Nat) : Nat → Fields → List Char → Option (Document × List Char)
  | 0, _, _ => none
  | fuel + 1, done, chars => do
    let (path, key, rest) ← key? chars
    let '=' :: rest ← skipLines? (rest.length + 1) rest | none
    let rest ← skipLines? (rest.length + 1) rest
    let (found, rest) ← value? depth fuel rest
    let done ← addValue path key found done
    let rest ← skipLines? (rest.length + 1) rest
    match rest with
    | ',' :: rest => do
      let rest ← skipLines? (rest.length + 1) rest
      match rest with
      | '\x7d' :: rest => some (.table (toFields done), rest)
      | rest => pairs? depth fuel done rest
    | '\x7d' :: rest => some (.table (toFields done), rest)
    | _ => none

end

/-- What has been read so far, and the path of the table opened last. -/
structure Progress where
  fields : Fields := []
  opened : List String := []

/-- Takes in the header that closes with the given brackets. -/
def header? (close : List Char) (act : List String → String → Fields → Option Fields)
    (progress : Progress) (chars : List Char) : Option (Progress × List Char) := do
  let (path, key, rest) ← key? chars
  if ¬ close.isPrefixOf rest then none
  let fields ← act path key progress.fields
  let rest ← lineEnd? (rest.drop close.length)
  some (⟨fields, path ++ [key]⟩, rest)

def line? (progress : Progress) (chars : List Char) : Option (Progress × List Char) :=
  match skipSpaces chars with
  | '[' :: '[' :: rest => header? [']', ']'] openItem progress rest
  | '[' :: rest => header? [']'] openTable progress rest
  | [] => some (progress, [])
  | '\n' :: rest => some (progress, rest)
  | '\r' :: '\n' :: rest => some (progress, rest)
  | '#' :: rest => (lineEnd? ('#' :: rest)).map fun rest => (progress, rest)
  | chars => do
    let (path, key, rest) ← key? chars
    let '=' :: rest := rest | none
    let (found, rest) ← value? maxDepth (2 * rest.length + 2) (skipSpaces rest)
    let rest ← lineEnd? rest
    let fields ← alter (addValue path key found) progress.opened progress.fields
    some (⟨fields, progress.opened⟩, rest)

def document? : Nat → Progress → List Char → Option Fields
  | _, progress, [] => some progress.fields
  | 0, _, _ :: _ => none
  | fuel + 1, progress, chars => do
    let (progress, rest) ← line? progress chars
    document? fuel progress rest

/-- A byte order mark may open a document. -/
def dropMark : List Char → List Char
  | '\ufeff' :: rest => rest
  | chars => chars

/-- The fields of a document, unless it is malformed. -/
def read? (source : String) : Option (List (String × Document)) := do
  let chars := dropMark source.toList
  let fields ← document? (chars.length + 1) {} chars
  settleFields? (toFields fields)

end DiscussionBoard.Document.Toml
