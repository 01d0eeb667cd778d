import Mathlib.Data.List.Nodup
import DiscussionBoard.Proofs.Browsing.Navigation

/-!
# What browsing tells a viewer

Listing and navigation tell a viewer nothing but the discussions that the viewer may see. Asking for
one discussion tells no more about the given forum, but also answers for other forums.
-/

namespace DiscussionBoard

namespace Shelf

variable {forum : Forum} {viewer : Viewer} {shelf other last : Shelf} {discussion : Discussion}

/-- Whether two shelves hold the same discussions of a forum, of those that a viewer may see. -/
def LookAlike (forum : Forum) (viewer : Viewer) (shelf other : Shelf) : Prop :=
  ∀ discussion, discussion.forumId = forum.id → forum.shows viewer discussion = true →
    (shelf.get? discussion.id = some discussion ↔ other.get? discussion.id = some discussion)

namespace LookAlike

theorem trans (halike : LookAlike forum viewer shelf other)
    (hlast : LookAlike forum viewer other last) : LookAlike forum viewer shelf last :=
  fun discussion howned hshows =>
    (halike discussion howned hshows).trans (hlast discussion howned hshows)

/-- A new discussion that is hidden or of another forum. -/
theorem insert (hfresh : shelf.get? discussion.id = none)
    (hunseen : discussion.forumId = forum.id → forum.shows viewer discussion = false) :
    LookAlike forum viewer shelf (shelf.insert discussion) := by
  intro seen howned hshows
  by_cases hid : seen.id = discussion.id
  · have hdiffer : seen ≠ discussion := by
      rintro rfl
      rw [hunseen howned] at hshows
      cases hshows
    rw [hid, hfresh, get?_insert_self, Option.some.injEq]
    exact iff_of_false nofun hdiffer.symm
  · rw [get?_insert_of_ne shelf hid]

end LookAlike

end Shelf

namespace Browsing

open DiscussionBoard.Shelf

variable {forum : Forum} {viewer : Viewer} {shelf other : Shelf} {id : Id}

theorem shown_eq_of_lookAlike (halike : LookAlike forum viewer shelf other) :
    shown shelf forum viewer = shown other forum viewer := by
  refine Forum.eq_of_mem_iff pairwise_shown pairwise_shown fun discussion => ?_
  rw [mem_shown_iff, mem_shown_iff]
  constructor
  · rintro ⟨hget, howned, hshows⟩
    exact ⟨(halike discussion howned hshows).mp hget, howned, hshows⟩
  · rintro ⟨hget, howned, hshows⟩
    exact ⟨(halike discussion howned hshows).mpr hget, howned, hshows⟩

/-- Shelves that look alike to a viewer are listed alike, and an id that neither holds for another
forum has the same neighbours on both or is found on neither, in whatever order each is stored. -/
theorem lookAlike_indistinguishable (forum : Forum) (viewer : Viewer) (shelf other : Shelf)
    (halike : LookAlike forum viewer shelf other)
    (listing listingOther browsing browsingOther : Arrangement) :
    (∃ listed, shelf.run listing (list forum viewer) = (.ok listed, shelf) ∧
      other.run listingOther (list forum viewer) = (.ok listed, other)) ∧
    ∀ id, ¬shelf.HoldsElsewhere forum.id id → ¬other.HoldsElsewhere forum.id id →
      ∃ outcome, shelf.run browsing (neighbours forum viewer id) = (outcome, shelf) ∧
        other.run browsingOther (neighbours forum viewer id) = (outcome, other) ∧
        (outcome = .error (.discussionNotFound id) ∨ ∃ found, outcome = .ok found) := by
  have hshown := shown_eq_of_lookAlike halike
  refine ⟨⟨shown shelf forum viewer, run_list listing, ?_⟩, fun id hlocal hlocalOther => ?_⟩
  · rw [hshown]
    exact run_list listingOther
  · by_cases hlisted : id ∈ (shown shelf forum viewer).map (·.id)
    · obtain ⟨before, target, after, hsplit, rfl⟩ := split_of_listed hlisted
      have hsplitOther : shown other forum viewer = before ++ target :: after := hshown ▸ hsplit
      exact ⟨.ok ⟨after.head?, before.getLast?⟩, run_neighbours_of_shown browsing hsplit,
        run_neighbours_of_shown browsingOther hsplitOther, .inr ⟨_, rfl⟩⟩
    · have hlistedOther : id ∉ (shown other forum viewer).map (·.id) := hshown ▸ hlisted
      exact ⟨.error (.discussionNotFound id), run_neighbours_of_unlisted hlocal hlisted,
        run_neighbours_of_unlisted hlocalOther hlistedOther, .inl rfl⟩

/-- A hidden discussion that ranks between the two shown ones, and one of another forum. -/
theorem lookAlike_indistinguishable_around_hidden :
    let forum : Forum := { id := .ofNat 1, courseId := .ofNat 2, groupMode := .separate }
    let viewer : Viewer := .participant (.ofNat 7) default
    let posted (number : Nat) : Discussion :=
      .opened (.ofNat number) forum.id (.ofNat 8) (.ofSeconds number)
    let shelf := (Shelf.empty.insert (posted 11)).insert (posted 13)
    let other := (shelf.insert { posted 12 with groupId := some (.ofNat 3) }).insert
      { posted 14 with forumId := .ofNat 4 }
    other.run .ascending (neighbours forum viewer (.ofNat 11)) =
      (.ok { next := some (posted 13) }, other) := by
  intro forum viewer posted shelf other
  have halike : LookAlike forum viewer shelf other :=
    (LookAlike.insert (by decide +kernel) fun _ => by decide +kernel).trans
      (LookAlike.insert (by decide +kernel) fun howned => absurd howned (by decide +kernel))
  obtain ⟨outcome, hrun, hrunOther, -⟩ := (lookAlike_indistinguishable forum viewer shelf other
    halike .ascending .ascending .ascending .ascending).2 (.ofNat 11) (by decide +kernel)
      (by decide +kernel)
  have hfound : (shelf.run .ascending (neighbours forum viewer (.ofNat 11))).1 =
      .ok { next := some (posted 13) } := by decide +kernel
  rw [hrunOther, ← hfound, hrun]

/-! ### Asking for one discussion -/

theorem run_visible?_eq_some_iff {arrangement : Arrangement} {discussion : Discussion} :
    (shelf.run arrangement (visible? forum viewer id)).1 = .ok (some discussion) ↔
      shelf.get? id = some discussion ∧ forum.shows viewer discussion = true := by
  cases hget : shelf.get? id with
  | none =>
      rw [run_visible?_of_missing hget]
      exact iff_of_false nofun (by simp)
  | some target =>
      rw [run_visible?_of_stored hget, Except.ok.injEq, Option.some.injEq]
      cases hshows : forum.shows viewer target with
      | false =>
          refine iff_of_false nofun ?_
          rintro ⟨rfl, hshown⟩
          rw [hshows] at hshown
          cases hshown
      | true =>
          rw [if_pos rfl, Option.some.injEq]
          constructor
          · rintro rfl
            exact ⟨rfl, hshows⟩
          · exact And.left

/-- A discussion that is answered when asked for is listed, or another forum owns it and the given
forum would show it. -/
theorem visible_iff_listed_or_elsewhere (shelf : Shelf) (forum : Forum) (viewer : Viewer) (id : Id)
    (listing arrangement : Arrangement) :
    ∃ listed, shelf.run listing (list forum viewer) = (.ok listed, shelf) ∧
      ∀ discussion, (shelf.run arrangement (visible? forum viewer id)).1 = .ok (some discussion) ↔
        (discussion ∈ listed ∧ discussion.id = id) ∨
          shelf.get? id = some discussion ∧ discussion.forumId ≠ forum.id ∧
            forum.shows viewer discussion = true := by
  refine ⟨shown shelf forum viewer, run_list listing, fun discussion => ?_⟩
  rw [run_visible?_eq_some_iff, mem_shown_iff]
  constructor
  · rintro ⟨hget, hshows⟩
    have hid : discussion.id = id := id_of_get? hget
    by_cases howned : discussion.forumId = forum.id
    · exact .inl ⟨⟨hid ▸ hget, howned, hshows⟩, hid⟩
    · exact .inr ⟨hget, howned, hshows⟩
  · rintro (⟨⟨hget, -, hshows⟩, rfl⟩ | ⟨hget, -, hshows⟩)
    · exact ⟨hget, hshows⟩
    · exact ⟨hget, hshows⟩

/-- A discussion that its own forum hides from the viewer is told to whoever asks for it under a
forum without groups. -/
theorem hidden_discussion_visible_elsewhere :
    let forum : Forum := { id := .ofNat 1, courseId := .ofNat 2 }
    let grouped : Forum := { id := .ofNat 4, courseId := .ofNat 2, groupMode := .separate }
    let viewer : Viewer := .participant (.ofNat 7) default
    let secret : Discussion :=
      { Discussion.opened (.ofNat 12) grouped.id (.ofNat 8) default with groupId := some (.ofNat 3) }
    let shelf := Shelf.empty.insert secret
    shelf.run .ascending (list forum viewer) = (.ok [], shelf) ∧
      shelf.run .ascending (list grouped viewer) = (.ok [], shelf) ∧
      shelf.run .ascending (visible? grouped viewer secret.id) = (.ok none, shelf) ∧
      shelf.run .ascending (visible? forum viewer secret.id) = (.ok (some secret), shelf) := by
  intro forum grouped viewer secret shelf
  have hget : shelf.get? secret.id = some secret := get?_insert_self ..
  have hlist : ∀ forum : Forum, (shelf.ofForum forum.id).filter (forum.shows viewer) = [] →
      shelf.run .ascending (list forum viewer) = (.ok [], shelf) := by
    intro forum hnone
    rw [run_list, shown, hnone, Forum.ranked, List.mergeSort_nil]
  refine ⟨hlist forum (by decide +kernel), hlist grouped (by decide +kernel), ?_, ?_⟩
  · exact run_visible?_of_stored hget
  · exact run_visible?_of_stored hget

end Browsing

end DiscussionBoard
