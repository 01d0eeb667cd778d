import DiscussionBoard.Forum

/-!
# Posters

What the author of a new post is, which decides whether the author starts subscribed.
-/

namespace DiscussionBoard

structure Poster where
  loggedIn : Bool := false
  guest : Bool := false
deriving DecidableEq, Inhabited

namespace Poster

def participant : Poster := { loggedIn := true }

def visitor : Poster := { loggedIn := true, guest := true }

/-- Guests and anonymous visitors never get subscriptions. -/
def isParticipant (poster : Poster) : Bool :=
  poster.loggedIn && !poster.guest

/-- Whether the forum leaves the poster a choice. -/
def canSubscribe (poster : Poster) (forum : Forum) : Bool :=
  poster.isParticipant && forum.subscriptionMode.isOptional

/-- Whether the author of a new post starts subscribed. A forum of free choice counts as one that
subscribes at once. -/
def startsSubscribed (poster : Poster) (forum : Forum) : Bool :=
  poster.isParticipant && forum.subscriptionMode ≠ .disallowed

end Poster

end DiscussionBoard
