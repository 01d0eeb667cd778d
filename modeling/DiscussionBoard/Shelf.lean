import DiscussionBoard.Discussion
import DiscussionBoard.Program
import DiscussionBoard.Table

/-!
# The shelf

Where discussions are stored, each under its own id, and the requests a program can make of it.
-/

namespace DiscussionBoard

structure Shelf where
  discussions : Table Id Discussion
  keyed : ∀ {id discussion}, discussions.get? id = some discussion → discussion.id = id

namespace Shelf

def empty : Shelf :=
  ⟨.empty, by simp⟩

instance : Inhabited Shelf := ⟨empty⟩

def get? (shelf : Shelf) (id : Id) : Option Discussion :=
  shelf.discussions.get? id

/-- The discussions of one forum. -/
def ofForum (shelf : Shelf) (forum : Id) : List Discussion :=
  shelf.discussions.values.filter fun discussion => discussion.forumId = forum

/-- Stores a discussion, in place of one with the same id. -/
def insert (shelf : Shelf) (discussion : Discussion) : Shelf where
  discussions := shelf.discussions.insert discussion.id discussion
  keyed {id found} hfound := by
    by_cases hid : id = discussion.id
    · subst hid
      rw [Table.get?_insert_self] at hfound
      cases hfound
      rfl
    · rw [Table.get?_insert_of_ne _ _ hid] at hfound
      exact shelf.keyed hfound

/-- Changes a stored discussion, and tells whether there is one. -/
def update (shelf : Shelf) (id : Id) (change : Discussion → Discussion) : Bool × Shelf :=
  match shelf.get? id with
  | some discussion => (true, shelf.insert (change discussion))
  | none => (false, shelf)

inductive Request
  | ofForum (forum : Id)
  | get (id : Id)
  | setPinned (id : Id) (pinned : Bool)
  | setTimeModified (id : Id) (timeModified : Instant)
  | setGroup (id : Id) (group : Option Id)
  | setWindow (id : Id) (timeStart timeEnd : Option Instant)
deriving DecidableEq

/-- A change is answered by whether the discussion is there. -/
abbrev Answer : Request → Type
  | .ofForum _ => List Discussion
  | .get _ => Option Discussion
  | _ => Bool

def signature : Signature := ⟨Request, Answer⟩

def perform : (request : Request) → Shelf → Answer request × Shelf
  | .ofForum forum, shelf => (shelf.ofForum forum, shelf)
  | .get id, shelf => (shelf.get? id, shelf)
  | .setPinned id pinned, shelf => shelf.update id fun discussion => { discussion with pinned }
  | .setTimeModified id timeModified, shelf =>
    shelf.update id fun discussion => { discussion with timeModified }
  | .setGroup id groupId, shelf => shelf.update id fun discussion => { discussion with groupId }
  | .setWindow id timeStart timeEnd, shelf =>
    shelf.update id fun discussion => { discussion with timeStart, timeEnd }

theorem get?_insert_self (shelf : Shelf) (discussion : Discussion) :
    (shelf.insert discussion).get? discussion.id = some discussion :=
  Table.get?_insert_self ..

theorem get?_insert_of_ne (shelf : Shelf) {discussion : Discussion} {id : Id}
    (hid : id ≠ discussion.id) : (shelf.insert discussion).get? id = shelf.get? id :=
  Table.get?_insert_of_ne _ _ hid

theorem id_of_get? {shelf : Shelf} {id : Id} {discussion : Discussion}
    (hget : shelf.get? id = some discussion) : discussion.id = id :=
  shelf.keyed hget

theorem mem_ofForum_iff {shelf : Shelf} {forum : Id} {discussion : Discussion} :
    discussion ∈ shelf.ofForum forum ↔
      shelf.get? discussion.id = some discussion ∧ discussion.forumId = forum := by
  simp only [ofForum, List.mem_filter, Table.mem_values_iff, decide_eq_true_eq, get?]
  constructor
  · rintro ⟨⟨id, hget⟩, hforum⟩
    exact ⟨shelf.keyed hget ▸ hget, hforum⟩
  · rintro ⟨hget, hforum⟩
    exact ⟨⟨_, hget⟩, hforum⟩

end Shelf

end DiscussionBoard
