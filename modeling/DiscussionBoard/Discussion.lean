import DiscussionBoard.Id
import DiscussionBoard.Instant

/-!
# Discussions

A discussion is an opening post with its replies. Its display window is half open: shown from its
start on and until just before its end.
-/

namespace DiscussionBoard

structure Discussion where
  id : Id
  forumId : Id
  /-- The author of the opening post. -/
  userId : Id
  /-- No group means open to all participants. -/
  groupId : Option Id := none
  pinned : Bool := false
  timeModified : Instant
  timeStart : Option Instant := none
  timeEnd : Option Instant := none
  firstPostCreated : Instant
deriving DecidableEq

namespace Discussion

/-- A fresh discussion, neither pinned nor restricted. -/
def opened (id forumId userId : Id) (created : Instant) : Discussion :=
  { id, forumId, userId, timeModified := created, firstPostCreated := created }

def isWithinWindow (discussion : Discussion) (now : Instant) : Bool :=
  (discussion.timeStart.all fun start => start ≤ now) &&
    discussion.timeEnd.all fun close => now < close

end Discussion

end DiscussionBoard
