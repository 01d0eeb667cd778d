import DiscussionBoard.LogFilter
import DiscussionBoard.Text.Alphanumeric
import DiscussionBoard.Text.Blank
import DiscussionBoard.Text.Numeral

/-!
# The written form of a log filter

Directives stand between commas, such as `info`, `seed=warn` or `seed[{rank}]=off`: a level, a
source, or both, and in brackets a span of work, a field or both.
-/

namespace DiscussionBoard

/-- A level is named by its word in any case, or by its depth. -/
def LogLevel.ofString? (word : String) : Option LogLevel :=
  LogLevel.all.find? fun level =>
    word.toLower = level.name || Numeral.readUnsigned? word = some level.depth

namespace LogDirective

/-- Why a text is no directive. -/
inductive Defect
  | malformed
  /-- A part of it would start or end inside a character. -/
  | cutsCharacter
deriving DecidableEq

abbrev Reading := Except Defect

/-- The characters of the first so many bytes, and those after them. -/
def splitBytes : Nat → List Char → Reading (List Char × List Char)
  | 0, chars => .ok ([], chars)
  | _, [] => .ok ([], [])
  | bytes + 1, c :: rest =>
    if bytes + 1 < c.utf8Size then .error .cutsCharacter
    else do
      let (front, back) ← splitBytes (bytes + 1 - c.utf8Size) rest
      .ok (c :: front, back)

/-- The part of a text that starts after so many bytes. -/
def partFrom (start : Nat) (chars : List Char) : Reading (List Char) := do
  return (← splitBytes start chars).2

/-- The part of a text between two byte positions. -/
def partBetween (start stop : Nat) (chars : List Char) : Reading (List Char) := do
  return (← splitBytes (stop - start) (← partFrom start chars)).1

def byteSize : List Char → Nat
  | [] => 0
  | c :: rest => c.utf8Size + byteSize rest

def isFirst (c : Char) : Bool :=
  Text.isAlphanumeric c || c ∈ ['-', ':', '_']

/-- Sets the level to what is written from a byte position on. Nothing there means everything. -/
def withLevel (directive : LogDirective) (start : Nat) (chars : List Char) :
    Reading LogDirective := do
  match ← partFrom start chars with
  | [] => return { directive with level := .trace }
  | word =>
    match LogLevel.ofString? (String.ofList word) with
    | some level => return { directive with level }
    | none => throw .malformed

/-- Narrows a directive to a field. With a value it is about spans only. -/
def withField (directive : LogDirective) (chars : List Char) : Reading LogDirective :=
  let name := chars.takeWhile (· ≠ '=')
  if chars = [] then throw .malformed
  else return { directive with
    field := some (String.ofList name)
    withinSpans := directive.withinSpans || name.length < chars.length }

/-- Takes in what stands in the text `chars` after the closing bracket, which is `rest` up to blanks
and starts at a byte position. -/
def afterBracket (directive : LogDirective) (position : Nat) (chars rest : List Char) :
    Reading LogDirective :=
  match rest with
  | [] => return directive
  | '=' :: _ => directive.withLevel (position + 1) chars
  | _ => throw .malformed

/-- Takes in what stands after the opening bracket. -/
def inBracket (directive : LogDirective) (position : Nat) (chars rest : List Char) :
    Reading LogDirective := do
  let span := rest.takeWhile fun c => c ≠ ']' ∧ c ≠ '\x7b'
  let inside := position + byteSize span
  match rest.drop span.length with
  | ']' :: rest =>
    let _ ← partBetween position inside chars
    afterBracket { directive with withinSpans := true } (inside + 1) chars rest
  | '\x7b' :: rest =>
    let name ← partBetween position inside chars
    let field := rest.takeWhile (· ≠ '\x7d')
    if field.length = rest.length then throw .malformed
    let closing := inside + 1 + byteSize field
    let directive := { directive with withinSpans := name ≠ [] }
    let directive ← directive.withField (← partBetween (inside + 1) closing chars)
    match rest.drop (field.length + 1) with
    | ']' :: rest => afterBracket directive (closing + 2) chars rest
    | _ => throw .malformed
  | _ => throw .malformed

/-- The directive of a text without commas. Where its parts stand is found without the blanks around
it, but they are taken from the text with the blanks. -/
def ofChars (chars : List Char) : Reading LogDirective := do
  let body := Text.skipBlanks (Text.dropTrailingBlanks chars)
  let word := body.takeWhile fun c => c ≠ '=' ∧ c ≠ '['
  let position := byteSize word
  if ¬ word.head?.all isFirst then throw .malformed
  match word, body.drop word.length with
  | [], '[' :: rest => inBracket {} 1 chars rest
  | [], _ => throw .malformed
  | _, [] =>
    match LogLevel.ofString? (String.ofList chars) with
    | some level => return { level }
    | none => return { source := String.ofList chars }
  | _, '[' :: rest =>
    let source ← partBetween 0 position chars
    inBracket { source := String.ofList source } (position + 1) chars rest
  | _, _ =>
    let source ← partBetween 0 position chars
    withLevel { source := String.ofList source } (position + 1) chars

def ofString (text : String) : Reading LogDirective :=
  ofChars text.toList

end LogDirective

namespace LogFilter

/-- The texts between commas, empty ones left out. -/
def parts (text : String) : List String :=
  ((text.toList.splitOn ',').map String.ofList).filter (· ≠ "")

/-- Leaves out what is malformed. -/
def dropMalformed : List (LogDirective.Reading LogDirective) →
    LogDirective.Reading (List LogDirective)
  | [] => .ok []
  | .ok directive :: rest => (dropMalformed rest).map (directive :: ·)
  | .error .malformed :: rest => dropMalformed rest
  | .error defect :: _ => .error defect

/-- The filter of a text, whose malformed directives count for nothing. -/
def ofString (text : String) : LogDirective.Reading LogFilter :=
  (dropMalformed ((parts text).map LogDirective.ofString)).map ofDirectives

/-- The filter of a text without malformed directives. -/
def ofStringStrict (text : String) : LogDirective.Reading LogFilter :=
  ((parts text).mapM LogDirective.ofString).map ofDirectives

end LogFilter

end DiscussionBoard
