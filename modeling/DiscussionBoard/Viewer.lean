import DiscussionBoard.Id
import DiscussionBoard.Instant

/-!
# Viewers

Who looks at a forum, when, and which filters they may bypass.
-/

namespace DiscussionBoard

structure Viewer where
  userId : Id
  /-- May see discussions outside their display window. -/
  viewHiddenTimedPosts : Bool := false
  /-- May see every group's discussions where groups are separate. -/
  accessAllGroups : Bool := false
  groups : List Id := []
  /-- The group picked by the viewer, or none for all of the viewer's groups. -/
  activeGroup : Option Id := none
  now : Instant
deriving DecidableEq

namespace Viewer

def participant (userId : Id) (now : Instant) : Viewer :=
  { userId, now }

/-- A viewer who bypasses both filters. -/
def admin (userId : Id) (now : Instant) : Viewer :=
  { userId, now, viewHiddenTimedPosts := true, accessAllGroups := true }

def isMemberOf (viewer : Viewer) (group : Id) : Bool :=
  group ∈ viewer.groups

end Viewer

end DiscussionBoard
