import DiscussionBoard.Text.Blank

/-!
# Settings

What a host of the board can set, the built-in values, and what makes settings invalid.
-/

namespace DiscussionBoard

inductive LogFormat
  | pretty | json
deriving DecidableEq, Inhabited

namespace LogFormat

def all : List LogFormat :=
  [pretty, json]

def name : LogFormat → String
  | pretty => "pretty"
  | json => "json"

end LogFormat

structure Settings where
  /-- Which log events are shown. -/
  filter : String := "info"
  format : LogFormat := .pretty
  /-- Whether look-ups of subscriptions are cached. -/
  cacheEnabled : Bool := true
  /-- How many discussions a seeded forum gets. -/
  discussions : Nat := 5
deriving DecidableEq

inductive SettingsFault
  /-- A source cannot be read, or a value is not of its setting's kind. -/
  | unreadable
  | emptyFilter
  | noDiscussions
deriving DecidableEq

namespace SettingsFault

/-- An unreadable source is told without a text. -/
def message? : SettingsFault → Option String
  | unreadable => none
  | emptyFilter => some "invalid setting logging.filter: must not be empty"
  | noDiscussions => some "invalid setting seed.discussions: must be at least 1"

end SettingsFault

namespace Settings

instance : Inhabited Settings := ⟨{}⟩

/-- A filter must hold more than blanks, and there must be a discussion to seed. -/
def validate (settings : Settings) : Except SettingsFault Settings :=
  if Text.isAllBlank settings.filter then .error .emptyFilter
  else if settings.discussions = 0 then .error .noDiscussions
  else .ok settings

end Settings

end DiscussionBoard
