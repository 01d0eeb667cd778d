import DiscussionBoard.Document.Json
import DiscussionBoard.Instant.Text
import DiscussionBoard.Seeding

/-!
# The log of a seeded forum

The events that a report is logged as, each on a line.
-/

namespace DiscussionBoard.Seeding

structure LogEvent where
  message : String
  fields : List (String × Document)

namespace LogEvent

/-- An id that may be missing. -/
def idField : Option Id → Document
  | some id => .text ("Some(" ++ id.toString ++ ")")
  | none => .text "None"

/-- A discussion with its place in the list. -/
def ofListed (entry : Discussion × Nat) : LogEvent :=
  ⟨"listing", listedFields.zip [
    .int entry.2, .text entry.1.id.toString, .bool entry.1.pinned,
    .text entry.1.timeModified.display]⟩

def ofNavigation (navigation : Navigation) : LogEvent :=
  ⟨"navigation", navigationFields.zip [
    .text navigation.discussion.toString, idField (navigation.around.prev.map (·.id)),
    idField (navigation.around.next.map (·.id))]⟩

def ofStanding (standing : Standing) : LogEvent :=
  ⟨"reader subscription", standingFields.zip [
    .bool standing.forumLevel, .bool standing.discussionLevel, .int standing.subscribers]⟩

/-- A text stands for itself, and any other value as in JSON. -/
def plain : Document → String
  | .text value => value
  | value => Document.Json.write value

def line (format : LogFormat) (now : Instant) (event : LogEvent) : String :=
  match format with
  | .pretty =>
    let fields := event.fields.map fun field => field.1 ++ "=" ++ plain field.2
    " ".intercalate (now.toString :: " INFO" :: (source ++ ":") :: event.message :: fields)
  | .json => Document.Json.write (.table [
      ("timestamp", .text now.toString), ("level", .text "INFO"),
      ("fields", .table (("message", .text event.message) :: event.fields)),
      ("target", .text source)])

end LogEvent

def Report.events (report : Report) : List LogEvent :=
  report.listing.zipIdx.map LogEvent.ofListed ++
    (report.navigation.map LogEvent.ofNavigation).toList ++
    (report.standing.map LogEvent.ofStanding).toList

/-- What a run logs. -/
def Outcome.log (outcome : Outcome) : List LogEvent :=
  outcome.shown.events

end DiscussionBoard.Seeding
