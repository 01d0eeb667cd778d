import DiscussionBoard.Listing
import DiscussionBoard.Shelf

/-!
# Browsing

What a viewer can ask about the stored discussions of a forum. A hidden discussion is answered like
a missing one.
-/

namespace DiscussionBoard.Browsing

open Program

def stored (forum : Id) : Program Shelf.signature (List Discussion) :=
  ask (.ofForum forum) done

def load (id : Id) : Program Shelf.signature Discussion :=
  ask (.get id) fun
    | some discussion => done discussion
    | none => fail (.discussionNotFound id)

/-- The visible discussions of a forum, most prominent first. -/
def list (forum : Forum) (viewer : Viewer) : Program Shelf.signature (List Discussion) := do
  let discussions ← stored forum.id
  ofExcept (forum.listing viewer discussions)

/-- The discussions around one, which the viewer must be able to see. -/
def neighbours (forum : Forum) (viewer : Viewer) (id : Id) :
    Program Shelf.signature Neighbours := do
  let target ← load id
  if target.forumId = forum.id && !forum.shows viewer target then
    fail (.discussionNotFound id)
  else
    let discussions ← stored forum.id
    ofExcept (forum.neighbours viewer discussions target)

/-- One discussion, unless the settings of the given forum hide it from the viewer. -/
def visible? (forum : Forum) (viewer : Viewer) (id : Id) :
    Program Shelf.signature (Option Discussion) := do
  let discussion ← load id
  pure (if forum.shows viewer discussion then some discussion else none)

end DiscussionBoard.Browsing
