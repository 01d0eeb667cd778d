import DiscussionBoard.Visibility

/-!
# Listings

Discussions of one forum are ranked by pinning, then activity, then id, and a listing shows the
highest rank first. The neighbours of a discussion are the visible discussions ranked right below
and right above it, found without sorting.
-/

namespace DiscussionBoard

structure Rank where
  pinned : Bool
  activity : Instant
  id : Id
deriving DecidableEq

namespace Rank

/-- Every pinned discussion outranks every other, the later activity wins next, and the higher id
breaks a tie. -/
instance : LT Rank where
  lt a b := a.pinned < b.pinned ∨ a.pinned = b.pinned ∧
    (a.activity < b.activity ∨ a.activity = b.activity ∧ a.id < b.id)

instance (a b : Rank) : Decidable (a < b) :=
  inferInstanceAs (Decidable (_ ∨ _ ∧ (_ ∨ _ ∧ _)))

end Rank

/-- The two discussions around a target in rank. -/
structure Neighbours where
  /-- The next lower rank, listed right after the target. -/
  prev : Option Discussion := none
  /-- The next higher rank, listed right before the target. -/
  next : Option Discussion := none
deriving DecidableEq

namespace Forum

def rank (forum : Forum) (discussion : Discussion) : Rank where
  pinned := discussion.pinned
  activity := if forum.isBlogLike then discussion.firstPostCreated else discussion.timeModified
  id := discussion.id

/-- The fault of the first listed discussion that another forum owns. -/
def foreign? (forum : Forum) (discussions : List Discussion) : Option Fault :=
  (discussions.find? fun discussion => discussion.forumId ≠ forum.id).map fun discussion =>
    .foreignDiscussion discussion.id discussion.forumId forum.id

/-- The visible discussions, highest rank first, equal ranks in the order given. -/
def listing (forum : Forum) (viewer : Viewer) (discussions : List Discussion) :
    Except Fault (List Discussion) :=
  match forum.foreign? discussions with
  | some fault => .error fault
  | none =>
    .ok ((discussions.filter (forum.shows viewer)).mergeSort fun a b =>
      !decide (forum.rank a < forum.rank b))

/-- Takes a candidate in where it is closer to the target's rank than the neighbour found so far. -/
def place (forum : Forum) (target : Rank) (found : Neighbours) (candidate : Discussion) :
    Neighbours :=
  let rank := forum.rank candidate
  if rank < target then
    if found.prev.all fun prev => forum.rank prev < rank then
      { found with prev := some candidate }
    else found
  else if target < rank then
    if found.next.all fun next => rank < forum.rank next then
      { found with next := some candidate }
    else found
  else found

/-- The neighbours of a target, which need not be visible or listed itself. -/
def neighbours (forum : Forum) (viewer : Viewer) (discussions : List Discussion)
    (target : Discussion) : Except Fault Neighbours :=
  match forum.foreign? (target :: discussions) with
  | some fault => .error fault
  | none =>
    let candidates := discussions.filter fun candidate =>
      candidate.id ≠ target.id && forum.shows viewer candidate
    .ok (candidates.foldl (forum.place (forum.rank target)) {})

end Forum

end DiscussionBoard
