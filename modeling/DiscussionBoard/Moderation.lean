import DiscussionBoard.Shelf

/-!
# Moderation

Changes to one stored discussion. Each fails where there is no such discussion.
-/

namespace DiscussionBoard.Moderation

open Program

def requireFound (id : Id) : Bool → Program Shelf.signature Unit
  | true => done ()
  | false => fail (.discussionNotFound id)

def setPinned (id : Id) (pinned : Bool) : Program Shelf.signature Unit :=
  ask (.setPinned id pinned) (requireFound id)

/-- Records activity at any time, an earlier one than the stored time included. -/
def touch (id : Id) (timeModified : Instant) : Program Shelf.signature Unit :=
  ask (.setTimeModified id timeModified) (requireFound id)

def setGroup (id : Id) (group : Option Id) : Program Shelf.signature Unit :=
  ask (.setGroup id group) (requireFound id)

/-- Whether both ends of a window are given and it closes no later than it opens. -/
def isInverted (timeStart timeEnd : Option Instant) : Bool :=
  match timeStart, timeEnd with
  | some start, some close => close ≤ start
  | _, _ => false

/-- Sets both ends of the display window, refusing an inverted one before anything is asked. -/
def setWindow (id : Id) (timeStart timeEnd : Option Instant) : Program Shelf.signature Unit :=
  if isInverted timeStart timeEnd then fail (.windowEndsBeforeStart id)
  else ask (.setWindow id timeStart timeEnd) (requireFound id)

end DiscussionBoard.Moderation
