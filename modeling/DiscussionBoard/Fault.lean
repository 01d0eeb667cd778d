import DiscussionBoard.Id.Text

/-!
# Faults

Why an operation of the board can fail, and the one wording of each cause.
-/

namespace DiscussionBoard

inductive Fault
  | notFound (entity reference : String)
  | unknownMode (code : Int)
  | invalid (reason : String)
  /-- A storage failure with its first cause and the contexts put around it, innermost first. -/
  | storage (cause : String) (contexts : List String)
  /-- A discussion handed to a forum that does not own it. -/
  | foreignDiscussion (discussion owner forum : Id)
deriving DecidableEq

namespace Fault

/-- The outermost context of a storage failure is all that is told of it. -/
def message : Fault → String
  | .notFound entity reference => s!"{entity} not found with ID {reference}"
  | .unknownMode code => s!"unrecognized subscription mode code {code}"
  | .invalid reason => s!"validation error: {reason}"
  | .storage cause contexts => s!"storage error: {contexts.getLast?.getD cause}"
  | .foreignDiscussion discussion owner forum =>
    s!"discussion {discussion} belongs to forum {owner}, not to forum {forum}"

def discussionNotFound (id : Id) : Fault :=
  .notFound "Discussion" id.toString

def windowEndsBeforeStart (id : Id) : Fault :=
  .invalid s!"display period of discussion {id} ends before it starts"

end Fault

end DiscussionBoard
