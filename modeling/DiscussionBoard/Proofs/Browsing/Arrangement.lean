import DiscussionBoard.Browsing
import DiscussionBoard.Proofs.Listing.Closest

/-!
# Browsing in any order of storage

Storage promises nothing about the order in which it hands out the discussions of a forum, and may
choose another one each time. No order changes what is listed, or what stands around a discussion.
-/

namespace DiscussionBoard

namespace Shelf

variable {shelf : Shelf} {forum id : Id} {discussion : Discussion}

theorem forumId_of_mem_ofForum (hmem : discussion ∈ shelf.ofForum forum) :
    discussion.forumId = forum :=
  (mem_ofForum_iff.mp hmem).2

/-- Discussions are stored under their own ids. -/
theorem nodup_ids_ofForum (shelf : Shelf) (forum : Id) :
    ((shelf.ofForum forum).map (·.id)).Nodup := by
  have hvalues : (shelf.discussions.values.map (·.id)).Nodup := by
    rw [List.Nodup, List.pairwise_map, Table.values, List.pairwise_map]
    refine shelf.discussions.sorted.imp_of_mem ?_
    intro a b ha hb hlt hsame
    have haid : a.2.id = a.1 := shelf.keyed (Table.get?_eq_some_iff.mpr ha)
    have hbid : b.2.id = b.1 := shelf.keyed (Table.get?_eq_some_iff.mpr hb)
    rw [haid, hbid] at hsame
    rw [hsame] at hlt
    exact Nat.lt_irrefl _ hlt
  exact (List.filter_sublist.map _).nodup hvalues

/-- The orders in which storage hands out the discussions of each forum. -/
structure Arrangement where
  discussions : Shelf → Id → List Discussion
  perm : ∀ shelf forum, (discussions shelf forum).Perm (shelf.ofForum forum)

/-- By ascending id. -/
def Arrangement.ascending : Arrangement where
  discussions := ofForum
  perm _ _ := .refl _

def performIn (arrangement : Arrangement) :
    (request : Request) → Shelf → Answer request × Shelf
  | .ofForum forum, shelf => (arrangement.discussions shelf forum, shelf)
  | request, shelf => perform request shelf

theorem performIn_ascending : performIn .ascending = perform := by
  funext request shelf
  cases request <;> rfl

/-- What a program comes to on a shelf, and the shelf it leaves. -/
def run {α : Type} (shelf : Shelf) (arrangement : Arrangement) (program : Program signature α) :
    Except Fault α × Shelf :=
  program.run (performIn arrangement) shelf

/-- Without a choice of order a program runs as on the plain shelf. -/
theorem run_ascending {α : Type} (program : Program signature α) :
    shelf.run .ascending program = program.run perform shelf := by
  rw [run, performIn_ascending]

section Run

variable {arrangement : Arrangement} {α β : Type} {program : Program signature α}
  {rest : α → Program signature β} {value : α} {fault : Fault}

theorem run_bind_of_ok {middle : Shelf}
    (hprogram : shelf.run arrangement program = (.ok value, middle)) :
    shelf.run arrangement (program >>= rest) = middle.run arrangement (rest value) := by
  have hbind := Program.run_bind (performIn arrangement) program rest shelf
  rw [run] at hprogram
  rwa [hprogram] at hbind

theorem run_bind_of_error (hprogram : shelf.run arrangement program = (.error fault, shelf)) :
    shelf.run arrangement (program >>= rest) = (.error fault, shelf) := by
  have hbind := Program.run_bind (performIn arrangement) program rest shelf
  rw [run] at hprogram
  rwa [hprogram] at hbind

theorem run_ofExcept (outcome : Except Fault α) :
    shelf.run arrangement (Program.ofExcept outcome) = (outcome, shelf) := by
  cases outcome <;> rfl

end Run

/-- Whether another forum owns the discussion with this id. -/
def HoldsElsewhere (shelf : Shelf) (forum id : Id) : Prop :=
  ∃ discussion, shelf.get? id = some discussion ∧ discussion.forumId ≠ forum

instance (shelf : Shelf) (forum id : Id) : Decidable (shelf.HoldsElsewhere forum id) :=
  decidable_of_iff ((shelf.get? id).any fun discussion => discussion.forumId ≠ forum)
    (by simp [HoldsElsewhere, Option.any_eq_true])

end Shelf

namespace Browsing

open DiscussionBoard.Shelf

variable {shelf : Shelf} {forum : Forum} {viewer : Viewer} {arrangement : Arrangement} {id : Id}
  {target discussion : Discussion} {before after : List Discussion}

/-- The discussions of a forum that a viewer may see, highest rank first. -/
def shown (shelf : Shelf) (forum : Forum) (viewer : Viewer) : List Discussion :=
  forum.ranked ((shelf.ofForum forum.id).filter (forum.shows viewer))

theorem mem_shown_iff : discussion ∈ shown shelf forum viewer ↔
    shelf.get? discussion.id = some discussion ∧ discussion.forumId = forum.id ∧
      forum.shows viewer discussion = true := by
  rw [shown, Forum.mem_ranked, List.mem_filter, mem_ofForum_iff, and_assoc]

theorem id_mem_shown_iff (hget : shelf.get? id = some target) (howned : target.forumId = forum.id) :
    id ∈ (shown shelf forum viewer).map (·.id) ↔ forum.shows viewer target = true := by
  have hid : target.id = id := id_of_get? hget
  rw [List.mem_map]
  constructor
  · rintro ⟨discussion, hmem, rfl⟩
    obtain ⟨hdiscussion, -, hshows⟩ := mem_shown_iff.mp hmem
    have hsame : target = discussion := Option.some.inj (hget.symm.trans hdiscussion)
    rw [hsame]
    exact hshows
  · intro hshows
    exact ⟨target, mem_shown_iff.mpr ⟨hid ▸ hget, howned, hshows⟩, hid⟩

theorem pairwise_shown :
    (shown shelf forum viewer).Pairwise fun a b => forum.rank b < forum.rank a :=
  Forum.pairwise_ranked_of_nodup
    ((List.filter_sublist.map _).nodup (shelf.nodup_ids_ofForum forum.id))

theorem nodup_shown : ((shown shelf forum viewer).map (·.id)).Nodup := by
  have hperm := (forum.ranked_perm ((shelf.ofForum forum.id).filter (forum.shows viewer))).map
    Discussion.id
  exact hperm.nodup_iff.mpr ((List.filter_sublist.map _).nodup (shelf.nodup_ids_ofForum forum.id))

theorem run_stored : shelf.run arrangement (stored forum.id) =
    (.ok (arrangement.discussions shelf forum.id), shelf) := rfl

theorem run_load : shelf.run arrangement (load id) =
    ((shelf.get? id).elim (.error (.discussionNotFound id)) .ok, shelf) := by
  cases hget : shelf.get? id <;> simp [Shelf.run, load, Program.run, performIn, perform, hget]

theorem run_load_of_stored (hget : shelf.get? id = some target) :
    shelf.run arrangement (load id) = (.ok target, shelf) := by
  rw [run_load, hget]
  rfl

theorem run_load_of_missing (hget : shelf.get? id = none) :
    shelf.run arrangement (load id) = (.error (.discussionNotFound id), shelf) := by
  rw [run_load, hget]
  rfl

section Arranged

variable (arrangement)

theorem nodup_ids_arranged : ((arrangement.discussions shelf forum.id).map (·.id)).Nodup :=
  ((arrangement.perm shelf forum.id).map _).nodup_iff.mpr (shelf.nodup_ids_ofForum forum.id)

theorem owned_of_arranged :
    ∀ discussion ∈ arrangement.discussions shelf forum.id, discussion.forumId = forum.id :=
  fun _ hmem => forumId_of_mem_ofForum ((arrangement.perm shelf forum.id).mem_iff.mp hmem)

theorem ranked_arranged : forum.ranked
    ((arrangement.discussions shelf forum.id).filter (forum.shows viewer)) =
      shown shelf forum viewer := by
  have hperm := (arrangement.perm shelf forum.id).filter (forum.shows viewer)
  exact Forum.ranked_eq_of_perm ((List.filter_sublist.map _).nodup (nodup_ids_arranged arrangement))
    hperm

theorem run_list : shelf.run arrangement (list forum viewer) =
    (.ok (shown shelf forum viewer), shelf) := by
  rw [list, run_bind_of_ok run_stored, run_ofExcept,
    Forum.listing_of_owned (owned_of_arranged arrangement), ranked_arranged]

/-! ### Around one discussion -/

theorem run_neighbours_of_missing (hget : shelf.get? id = none) :
    shelf.run arrangement (neighbours forum viewer id) =
      (.error (.discussionNotFound id), shelf) := by
  rw [neighbours, run_bind_of_error (run_load_of_missing hget)]

theorem run_neighbours_of_elsewhere (hget : shelf.get? id = some target)
    (helsewhere : target.forumId ≠ forum.id) :
    shelf.run arrangement (neighbours forum viewer id) =
      (.error (.foreignDiscussion id target.forumId forum.id), shelf) := by
  have hid : target.id = id := id_of_get? hget
  rw [neighbours, run_bind_of_ok (run_load_of_stored hget), if_neg (by simp [helsewhere]),
    run_bind_of_ok run_stored, run_ofExcept, Forum.neighbours_of_foreign helsewhere, hid]

theorem run_neighbours_of_hidden (hget : shelf.get? id = some target)
    (howned : target.forumId = forum.id) (hhidden : forum.shows viewer target = false) :
    shelf.run arrangement (neighbours forum viewer id) =
      (.error (.discussionNotFound id), shelf) := by
  rw [neighbours, run_bind_of_ok (run_load_of_stored hget), if_pos (by simp [howned, hhidden])]
  rfl

theorem run_neighbours_of_shown (hlisted : shown shelf forum viewer = before ++ target :: after) :
    shelf.run arrangement (neighbours forum viewer target.id) =
      (.ok ⟨after.head?, before.getLast?⟩, shelf) := by
  have hmem : target ∈ shown shelf forum viewer := by simp [hlisted]
  obtain ⟨hget, howned, hshows⟩ := mem_shown_iff.mp hmem
  have haround : forum.neighbours viewer (arrangement.discussions shelf forum.id) target =
      .ok ⟨after.head?, before.getLast?⟩ := by
    rw [← ranked_arranged arrangement] at hlisted
    exact Forum.neighbours_of_listed (nodup_ids_arranged arrangement)
      (owned_of_arranged arrangement) hlisted
  rw [neighbours, run_bind_of_ok (run_load_of_stored hget), if_neg (by simp [hshows]),
    run_bind_of_ok run_stored, run_ofExcept, haround]

end Arranged

theorem run_visible?_of_missing (hget : shelf.get? id = none) :
    shelf.run arrangement (visible? forum viewer id) = (.error (.discussionNotFound id), shelf) := by
  rw [visible?, run_bind_of_error (run_load_of_missing hget)]

theorem run_visible?_of_stored (hget : shelf.get? id = some target) :
    shelf.run arrangement (visible? forum viewer id) =
      (.ok (if forum.shows viewer target then some target else none), shelf) := by
  rw [visible?, run_bind_of_ok (run_load_of_stored hget)]
  rfl

end Browsing

end DiscussionBoard
