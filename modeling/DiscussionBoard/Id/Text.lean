import DiscussionBoard.Id
import DiscussionBoard.Text.Numeral

/-!
# The written form of an id

An id is written as 32 lower-case hexadecimal digits in groups of 8, 4, 4, 4 and 12, joined by
hyphens. Reading also takes the digits without hyphens, and the grouped form in braces or after
`urn:uuid:`, with letters of either case.
-/

namespace DiscussionBoard.Id

/-- The lengths of the groups after the first one. -/
def laterGroups : List Nat := [4, 4, 4, 12]

/-- Puts a hyphen in front of each later group. -/
def hyphenate : List Nat → List Char → List Char
  | [], digits => digits
  | width :: widths, digits => '-' :: (digits.take width ++ hyphenate widths (digits.drop width))

/-- Takes the hyphens out again, refusing a group of another length. -/
def joinGroups? : List Nat → List Char → Option (List Char)
  | [], [] => some []
  | [], _ :: _ => none
  | _ :: _, [] => none
  | width :: widths, c :: rest =>
    if c = '-' ∧ width ≤ rest.length then
      (joinGroups? widths (rest.drop width)).map (rest.take width ++ ·)
    else none

def ofDigits? (digits : List Char) : Option Id :=
  if digits.length = 32 then (Numeral.read? 16 digits).map ofNat else none

def ofGroups? (chars : List Char) : Option Id :=
  (joinGroups? laterGroups (chars.drop 8)).bind fun later => ofDigits? (chars.take 8 ++ later)

/-- The text between an opening and a closing brace. -/
def unbraced? : List Char → Option (List Char)
  | '{' :: rest => if rest.getLast? = some '}' then some rest.dropLast else none
  | _ => none

def urnLead : List Char := "urn:uuid:".toList

def ofChars? (chars : List Char) : Option Id :=
  if chars.length = 32 then ofDigits? chars
  else if urnLead.isPrefixOf (chars.map Char.toLower) then ofGroups? (chars.drop urnLead.length)
  else match unbraced? chars with
    | some inner => ofGroups? inner
    | none => ofGroups? chars

def ofString? (text : String) : Option Id :=
  ofChars? text.toList

def digits (id : Id) : List Char :=
  Numeral.write 16 32 id.toNat

def toChars (id : Id) : List Char :=
  id.digits.take 8 ++ hyphenate laterGroups (id.digits.drop 8)

def toString (id : Id) : String :=
  String.ofList id.toChars

instance : ToString Id := ⟨Id.toString⟩

theorem joinGroups?_hyphenate (widths : List Nat) (digits : List Char)
    (hlength : digits.length = widths.foldr (· + ·) 0) :
    joinGroups? widths (hyphenate widths digits) = some digits := by
  induction widths generalizing digits with
  | nil =>
    have : digits = [] := by simpa using hlength
    subst this
    rfl
  | cons width widths ih =>
    have hwidth : width ≤ digits.length := by simp [hlength]
    have htake : (digits.take width).length = width := by simp [hwidth]
    have hdrop : (digits.drop width).length = widths.foldr (· + ·) 0 := by simp [hlength]
    have hfirst : (digits.take width ++ hyphenate widths (digits.drop width)).take width =
        digits.take width := by
      rw [List.take_append_of_le_length (by omega), List.take_of_length_le (by omega)]
    have hrest : (digits.take width ++ hyphenate widths (digits.drop width)).drop width =
        hyphenate widths (digits.drop width) := by
      rw [List.drop_append_of_le_length (by omega), List.drop_of_length_le (by omega)]
      rfl
    simp only [hyphenate, joinGroups?, List.length_append, htake, Nat.le_add_right, and_self,
      if_true, hfirst, hrest, ih _ hdrop, Option.map_some, List.take_append_drop]

theorem ofDigits?_digits (id : Id) : ofDigits? id.digits = some id := by
  have hread : Numeral.read? 16 id.digits = some id.toNat :=
    Numeral.read?_write (by decide) (by decide) id.toNat_lt
  have hlength : id.digits.length = 32 := Numeral.length_write 16 32 id.toNat
  simp [ofDigits?, hlength, hread]

end DiscussionBoard.Id
