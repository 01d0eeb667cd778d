import DiscussionBoard.Discussion
import DiscussionBoard.Forum
import DiscussionBoard.Viewer

/-!
# Visibility

Which discussions of a forum a viewer may see. Two independent filters apply, the display window
and the separation of groups, and each has a capability that bypasses it.
-/

namespace DiscussionBoard

/-- The settings of a forum that decide what is visible. -/
structure VisibilityRules where
  timedPosts : Bool
  groupMode : GroupMode
deriving DecidableEq

def Forum.visibilityRules (forum : Forum) : VisibilityRules :=
  ⟨forum.timedPosts, forum.groupMode⟩

namespace VisibilityRules

/-- Authors see their own discussions at any time. -/
def passesWindow (rules : VisibilityRules) (viewer : Viewer) (discussion : Discussion) : Bool :=
  !rules.timedPosts || viewer.viewHiddenTimedPosts || discussion.userId = viewer.userId ||
    discussion.isWithinWindow viewer.now

/-- A picked group narrows the viewer's own groups. -/
def passesGroups (rules : VisibilityRules) (viewer : Viewer) (discussion : Discussion) : Bool :=
  rules.groupMode ≠ .separate || viewer.accessAllGroups ||
    discussion.groupId.all fun group =>
      viewer.isMemberOf group && viewer.activeGroup.all fun active => active = group

def isVisible (rules : VisibilityRules) (viewer : Viewer) (discussion : Discussion) : Bool :=
  rules.passesWindow viewer discussion && rules.passesGroups viewer discussion

end VisibilityRules

def Forum.shows (forum : Forum) (viewer : Viewer) (discussion : Discussion) : Bool :=
  forum.visibilityRules.isVisible viewer discussion

end DiscussionBoard
