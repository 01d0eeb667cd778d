import DiscussionBoard.Browsing
import DiscussionBoard.Instant.Range
import DiscussionBoard.LogFilter.Text
import DiscussionBoard.Moderation
import DiscussionBoard.Settings.Load
import DiscussionBoard.Subscription.Change

/-!
# Seeding

A fresh forum is filled with one discussion an hour up to now, and an enrolled reader looks at it:
at the listing, at what is around the middle discussion, and at the reader's own subscriptions after
opting out of that discussion.
-/

namespace DiscussionBoard.Seeding

open Program

/-- Fresh ids in the order they are used: course, forum, author, reader, then the discussions. -/
abbrev Names := Nat → Id

def forum (names : Names) : Forum :=
  { id := names 1, courseId := names 0, subscriptionMode := .initial }

def author (names : Names) : Id := names 2

def reader (names : Names) : Id := names 3

def discussionId (names : Names) (place : Nat) : Id := names (place + 4)

/-- As many hours before now as there are discussions, where that is still reckoned. -/
def opening? (now : Instant) (count : Nat) : Option Instant :=
  let opening := now.addHours (-count)
  if opening.IsReckoned then some opening else none

def discussions (names : Names) (opening : Instant) (count : Nat) : List Discussion :=
  (List.range count).map fun hour =>
    Discussion.opened (discussionId names hour) (forum names).id (author names)
      (opening.addHours hour)

def shelf (names : Names) (opening : Instant) (count : Nat) : Shelf :=
  (discussions names opening count).foldl Shelf.insert Shelf.empty

def register (names : Names) : Register :=
  (Register.enrol {} (names 0) (author names)).enrol (names 0) (reader names)

def desk (names : Names) (cacheEnabled : Bool) : Subscription.Desk :=
  ⟨.empty, register names, { enabled := cacheEnabled }⟩

/-- What is around one discussion. -/
structure Navigation where
  discussion : Id
  around : Neighbours
deriving DecidableEq

/-- How the reader stands to one discussion and its forum. -/
structure Standing where
  forumLevel : Bool
  discussionLevel : Bool
  /-- How many users are subscribed to the discussion. -/
  subscribers : Nat
deriving DecidableEq

structure Report where
  listing : List Discussion := []
  navigation : Option Navigation := none
  standing : Option Standing := none
deriving DecidableEq, Inhabited

def pinFirst : List Id → Program Shelf.signature Unit
  | [] => done ()
  | first :: _ => Moderation.setPinned first true

def navigate (forum : Forum) (viewer : Viewer) (id : Id) : Program Shelf.signature Navigation := do
  let around ← Browsing.neighbours forum viewer id
  pure ⟨id, around⟩

/-- Pins the oldest discussion, then looks at the listing and around the middle one. -/
def browse (forum : Forum) (viewer : Viewer) (seeded : List Id) :
    Program Shelf.signature (List Discussion × Option Navigation) := do
  pinFirst seeded
  let listing ← Browsing.list forum viewer
  match seeded[seeded.length / 2]? with
  | some middle =>
    let navigation ← navigate forum viewer middle
    pure (listing, some navigation)
  | none => pure (listing, none)

/-- Enrols the reader, opts out of one discussion, and looks at the subscriptions that remain. -/
def optOut (now : Instant) (forum : Forum) (reader discussion : Id) :
    Program Subscription.signature Standing := do
  let _ ← Subscription.enrolled reader [forum]
  let _ ← Subscription.unsubscribe now reader forum (some discussion) true
  let forumLevel ← Subscription.isSubscribed reader forum none
  let discussionLevel ← Subscription.isSubscribed reader forum (some discussion)
  let subscribers ← Subscription.discussionSubscribers forum discussion
  pure ⟨forumLevel, discussionLevel, subscribers.length⟩

/-- What the reader sees of a forum whose discussions start at a given time. -/
def report (names : Names) (opening now : Instant) (count : Nat) (cacheEnabled : Bool) :
    Except Fault Report := do
  let seeded := (List.range count).map (discussionId names)
  let viewer := Viewer.participant (reader names) now
  let (listing, navigation) ←
    (run Shelf.perform (browse (forum names) viewer seeded) (shelf names opening count)).1
  match navigation with
  | none => pure { listing }
  | some navigation =>
    let standing ← (run Subscription.Desk.perform
      (optOut now (forum names) (reader names) navigation.discussion)
      (desk names cacheEnabled)).1
    pure { listing, navigation := some navigation, standing := some standing }

/-- Under which source the report is logged. -/
def source : String := "seed"

/-! The report is logged as one event for each listed discussion, one for the navigation and one for
the reader. Next to these fields each event has a message. -/

def listedFields : List String := ["rank", "id", "pinned", "modified"]

def navigationFields : List String := ["discussion", "prev", "next"]

def standingFields : List String := ["forum_level", "discussion_level", "subscribers"]

/-- What a filter shows of a report, which is logged as information. -/
def Report.through (report : Report) (filter : LogFilter) : Report :=
  let shows (fields : List String) : Bool := filter.shows source ("message" :: fields) .info
  { listing := if shows listedFields then report.listing else []
    navigation := if shows navigationFields then report.navigation else none
    standing := if shows standingFields then report.standing else none }

/-- How a run from the settings ends. -/
inductive Outcome
  | refused (fault : SettingsFault)
  /-- The filter is cut inside a character. -/
  | brokenFilter
  /-- The discussions would start before the first year that instants are reckoned in. -/
  | outOfReach
  | failed (fault : Fault)
  /-- What the log shows of the report. -/
  | reported (format : LogFormat) (shown : Report)

namespace Outcome

def exitCode : Outcome → Nat
  | reported _ _ => 0
  | refused _ | failed _ => 1
  | brokenFilter | outOfReach => 101

def shown : Outcome → Report
  | reported _ report => report
  | refused _ | brokenFilter | outOfReach | failed _ => {}

end Outcome

/-- The filter of a host that gives one by itself, if it is well formed, and else that of the
settings. -/
def logFilter (ofHost : Option String) (settings : Settings) :
    LogDirective.Reading LogFilter :=
  match ofHost.map LogFilter.ofStringStrict with
  | some (.ok filter) => .ok filter
  | some (.error .cutsCharacter) => .error .cutsCharacter
  | some (.error .malformed) | none => LogFilter.ofString settings.filter

/-- Seeds a forum as the settings say. -/
def perform (names : Names) (now : Instant) (settings : Settings) (filter : LogFilter) : Outcome :=
  match opening? now settings.discussions with
  | none => .outOfReach
  | some opening =>
    match report names opening now settings.discussions settings.cacheEnabled with
    | .error fault => .failed fault
    | .ok report => .reported settings.format (report.through filter)

/-- The value of the variable that a host gives its filter in, if it names one. The `.env` file may
set it as well. -/
def filterOfHost? (filterVariable : Option String) (vars : List (String × String)) :
    Option String :=
  filterVariable.bind fun name => (vars.find? fun entry => entry.1 = name).map (·.2)

/-- Loads the settings through a reader and seeds a forum. -/
def outcomeBy (reader : Settings.Reader) (filterVariable : Option String)
    (files : String → Option String) (vars : List (String × String)) (names : Names)
    (now : Instant) : Outcome :=
  match reader.load files vars with
  | .error fault => .refused fault
  | .ok settings =>
    match logFilter (filterOfHost? filterVariable (Settings.environment files vars)) settings with
    | .error _ => .brokenFilter
    | .ok filter => perform names now settings filter

def outcome : (filterVariable : Option String) → (files : String → Option String) →
    (vars : List (String × String)) → (names : Names) → (now : Instant) → Outcome :=
  outcomeBy .plain

end DiscussionBoard.Seeding
