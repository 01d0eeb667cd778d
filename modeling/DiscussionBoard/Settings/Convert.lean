import DiscussionBoard.Decimal.Shortest
import DiscussionBoard.Document
import DiscussionBoard.Settings
import DiscussionBoard.Text.Numeral

/-!
# Converting values of settings

Sources write values as they can, so each kind of setting takes values of several kinds. A section
is a table of its settings, or a list of them in their order; a setting that is not given keeps its
built-in value.
-/

namespace DiscussionBoard.Settings

def yesWords : List String := ["true", "on", "yes"]

def noWords : List String := ["false", "off", "no"]

/-- The truth value of a word in any case. -/
def ofWord? (word : String) : Option Bool :=
  if word.toLower ∈ yesWords then some true
  else if word.toLower ∈ noWords then some false
  else none

/-- Any scalar's text. -/
def text? : Document → Option String
  | .bool value => some (if value then "true" else "false")
  | .int value => some s!"{value}"
  | .float value => some (Decimal.ofFloat value)
  | .text value => some value
  | .null | .list _ | .table _ => none

/-- A number counts as whether it differs from zero. -/
def switch? : Document → Option Bool
  | .bool value => some value
  | .int value => some (value ≠ 0)
  | .float value => some (value != 0)
  | .text "1" => some true
  | .text "0" => some false
  | .text value => ofWord? value
  | .null | .list _ | .table _ => none

def inRange? (value : Nat) : Option Nat :=
  if value < 1 <<< 32 then some value else none

/-- A number with a fraction is rounded, half away from zero, and one below zero becomes zero. -/
def count? : Document → Option Nat
  | .bool value => some value.toNat
  | .int value => if 0 ≤ value then inRange? value.toNat else none
  | .float value => inRange? value.round.toUInt64.toNat
  | .text value =>
    match ofWord? value with
    | some yes => some yes.toNat
    | none => (Numeral.readUnsigned? value).bind inRange?
  | .null | .list _ | .table _ => none

/-- A format is named by a text, or by the one field of a table. -/
def format? : Document → Option LogFormat
  | .text name | .table [(name, _)] => LogFormat.all.find? fun format => format.name = name
  | _ => none

/-- The value given for one setting of a section, if it is given. The outer option fails where the
section is neither a table nor a list. -/
def given? (part : Option Document) (name : String) (place : Nat) : Option (Option Document) :=
  match part with
  | none => some none
  | some (.table fields) => some (Document.lookup name fields)
  | some (.list items) => some items[place]?
  | some _ => none

def setting? {α : Type} (fields : List (String × Document)) (part name : String) (place : Nat)
    (convert : Document → Option α) (builtIn : α) : Option α := do
  match ← given? (Document.lookup part fields) name place with
  | some value => convert value
  | none => some builtIn

/-- The settings that merged sources give. -/
def ofFields? (fields : List (String × Document)) : Option Settings := do
  let builtIn : Settings := {}
  let filter ← setting? fields "logging" "filter" 0 text? builtIn.filter
  let format ← setting? fields "logging" "format" 1 format? builtIn.format
  let cacheEnabled ←
    setting? fields "subscriptions" "cache_enabled" 0 switch? builtIn.cacheEnabled
  let discussions ← setting? fields "seed" "discussions" 0 count? builtIn.discussions
  some { filter, format, cacheEnabled, discussions }

end DiscussionBoard.Settings
