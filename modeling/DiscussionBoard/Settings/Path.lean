import DiscussionBoard.Text.Numeral

/-!
# Paths into settings

The key of an entry is a path: a name, then names after points and indices in brackets, as in
`logging.filter` or `logging[0]`.
-/

namespace DiscussionBoard.Settings

inductive Step
  | field (name : String)
  /-- A place in a list, from its end where the index is negative. -/
  | item (index : Int)
deriving DecidableEq

structure Path where
  root : String
  steps : List Step
deriving DecidableEq

namespace Path

def isNameChar (c : Char) : Bool :=
  c.isAlphanum || c = '_' || c = '-'

def isSpace (c : Char) : Bool :=
  c = ' ' || c = '\t'

/-- An index that fits 64 bits, between blanks. -/
def index? (chars : List Char) : Option Int :=
  let chars := chars.dropWhile isSpace
  let (negative, chars) := match chars with
    | '-' :: rest => (true, rest)
    | chars => (false, chars)
  let digits := chars.takeWhile Char.isDigit
  if digits = [] ∨ ¬ (chars.drop digits.length).all isSpace then none
  else do
    let distance ← Numeral.read? 10 digits
    let index : Int := if negative then -distance else distance
    if -0x8000000000000000 ≤ index ∧ index < 0x8000000000000000 then some index else none

def steps? (chars : List Char) : Option (List Step) :=
  match chars with
  | [] => some []
  | '.' :: rest =>
    let name := rest.takeWhile isNameChar
    if name = [] then none
    else (steps? (rest.drop name.length)).map (.field (String.ofList name) :: ·)
  | '[' :: rest =>
    let inside := rest.takeWhile (· ≠ ']')
    if inside.length = rest.length then none
    else do
      let index ← index? inside
      let others ← steps? (rest.drop (inside.length + 1))
      some (.item index :: others)
  | _ => none
termination_by chars.length
decreasing_by all_goals simp only [List.length_drop, List.length_cons]; omega

def ofString? (key : String) : Option Path :=
  let root := key.toList.takeWhile isNameChar
  if root = [] then none
  else (steps? (key.toList.drop root.length)).map fun steps => ⟨String.ofList root, steps⟩

end Path

end DiscussionBoard.Settings
