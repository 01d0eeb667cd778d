import DiscussionBoard.Proofs.Moderation.LastWrite

/-!
# Bystanders of a change

A change of one discussion may move it in a listing, make it appear or make it vanish. All other
discussions stay listed as they are, in the same order. In a blog not even the discussion moves when
it is touched, because its opening post ranks it.
-/

namespace DiscussionBoard

open DiscussionBoard.Shelf

variable {forum : Forum} {viewer : Viewer} {shelf after : Shelf} {id : Id}
  {change : Discussion → Discussion}

/-- A change of discussions that nobody can tell from the place where they are listed. -/
structure Forum.KeepsPlaces (forum : Forum) (change : Discussion → Discussion) : Prop where
  rank : ∀ discussion, forum.rank (change discussion) = forum.rank discussion
  forumId : ∀ discussion, (change discussion).forumId = discussion.forumId
  shows : ∀ viewer discussion, forum.shows viewer (change discussion) = forum.shows viewer discussion

namespace Forum.KeepsPlaces

theorem id_eq (hplaces : forum.KeepsPlaces change) (discussion : Discussion) :
    (change discussion).id = discussion.id :=
  id_eq_of_rank_eq (hplaces.rank discussion)

theorem map_ids (hplaces : forum.KeepsPlaces change) (discussions : List Discussion) :
    (discussions.map change).map (·.id) = discussions.map (·.id) := by
  rw [List.map_map]
  exact List.map_congr_left fun discussion _ => hplaces.id_eq discussion

end Forum.KeepsPlaces

namespace Browsing

/-! ### What is shown after a change -/

/-- Shelves that differ under one id at most show the rest alike. -/
theorem shown_filter_of_get? (hothers : ∀ other, other ≠ id → after.get? other = shelf.get? other) :
    (shown after forum viewer).filter (fun discussion => discussion.id ≠ id) =
      (shown shelf forum viewer).filter fun discussion => discussion.id ≠ id := by
  refine Forum.eq_of_mem_iff (pairwise_shown.filter _) (pairwise_shown.filter _)
    fun discussion => ?_
  rw [List.mem_filter, List.mem_filter, mem_shown_iff, mem_shown_iff]
  refine and_congr_left fun hid => ?_
  rw [hothers discussion.id (of_decide_eq_true hid)]

section KeepsPlaces

variable (hplaces : forum.KeepsPlaces change)
  (hafter : ∀ id, after.get? id = (shelf.get? id).map change)
include hplaces hafter

theorem shown_of_keepsPlaces :
    shown after forum viewer = (shown shelf forum viewer).map change := by
  have hsorted : ((shown shelf forum viewer).map change).Pairwise fun a b =>
      forum.rank b < forum.rank a := by
    simp only [List.pairwise_map, hplaces.rank]
    exact pairwise_shown
  refine Forum.eq_of_mem_iff pairwise_shown hsorted fun discussion => ?_
  simp only [List.mem_map, mem_shown_iff]
  constructor
  · rintro ⟨hget, howned, hshows⟩
    rw [hafter, Option.map_eq_some_iff] at hget
    obtain ⟨before, hbefore, rfl⟩ := hget
    rw [hplaces.id_eq] at hbefore
    rw [hplaces.forumId] at howned
    rw [hplaces.shows] at hshows
    exact ⟨before, ⟨hbefore, howned, hshows⟩, rfl⟩
  · rintro ⟨before, ⟨hbefore, howned, hshows⟩, rfl⟩
    rw [hafter, hplaces.id_eq, hbefore, hplaces.forumId, hplaces.shows]
    exact ⟨rfl, howned, hshows⟩

/-- Navigation leads to the same ids. -/
theorem run_neighbours_of_keepsPlaces (hlisted : id ∈ (shown shelf forum viewer).map (·.id))
    (browsing browsingAfter : Arrangement) :
    ∃ found foundAfter, shelf.run browsing (neighbours forum viewer id) = (.ok found, shelf) ∧
      after.run browsingAfter (neighbours forum viewer id) = (.ok foundAfter, after) ∧
      foundAfter.prev.map (·.id) = found.prev.map (·.id) ∧
      foundAfter.next.map (·.id) = found.next.map (·.id) := by
  obtain ⟨target, hmem, rfl⟩ := List.mem_map.mp hlisted
  obtain ⟨before, rest, hsplit⟩ := List.append_of_mem hmem
  have hsplitAfter : shown after forum viewer =
      before.map change ++ change target :: rest.map change := by
    rw [shown_of_keepsPlaces hplaces hafter, hsplit, List.map_append, List.map_cons]
  have haround := run_neighbours_of_shown browsingAfter hsplitAfter
  rw [hplaces.id_eq] at haround
  have hids : ∀ found : Option Discussion,
      (found.map change).map (·.id) = found.map (·.id) := by
    intro found
    cases found with
    | none => rfl
    | some discussion => exact congrArg some (hplaces.id_eq discussion)
  refine ⟨_, _, run_neighbours_of_shown browsing hsplit, haround, ?_, ?_⟩
  · rw [List.head?_map]
    exact hids rest.head?
  · rw [List.getLast?_map]
    exact hids before.getLast?

end KeepsPlaces

end Browsing

namespace Moderation

open Browsing

theorem get?_run_set_of_ne {other : Id} (hother : other ≠ id) (change : Change)
    (arrangement : Arrangement) (fails : Nat → Option Fault) :
    (Trial.run ⟨.set id change, arrangement, fails⟩ shelf).2.1.get? other = shelf.get? other := by
  obtain ⟨fault, -, hafter⟩ | ⟨-, -, hafter⟩ := run_set_cases shelf arrangement fails id change
  · exact hafter other
  · rw [hafter]
    simp [hother]

/-- In a blog the activity that ranks a discussion is its opening post. -/
theorem keepsPlaces_touch (hblog : forum.isBlogLike = true) (id : Id) (time : Instant) :
    forum.KeepsPlaces fun discussion =>
      if discussion.id = id then Change.apply discussion (.timeModified time) else discussion where
  rank discussion := by
    split
    · simp [Change.apply, Forum.rank, hblog]
    · rfl
  forumId discussion := by split <;> rfl
  shows viewer discussion := by split <;> rfl

/-- A touch, accepted or not, is a change of discussions that keeps their places in a blog. -/
theorem exists_keepsPlaces_touch (hblog : forum.isBlogLike = true) (shelf : Shelf) (id : Id)
    (time : Instant) (arrangement : Arrangement) (fails : Nat → Option Fault) :
    ∃ change : Discussion → Discussion, forum.KeepsPlaces change ∧ ∀ other,
      (Trial.run ⟨.set id (.timeModified time), arrangement, fails⟩ shelf).2.1.get? other =
        (shelf.get? other).map change := by
  obtain ⟨fault, -, hafter⟩ | ⟨-, -, hafter⟩ :=
    run_set_cases shelf arrangement fails id (.timeModified time)
  · refine ⟨fun discussion => discussion, ⟨fun _ => rfl, fun _ => rfl, fun _ _ => rfl⟩,
      fun other => ?_⟩
    rw [hafter, Option.map_id']
  · refine ⟨_, keepsPlaces_touch hblog id time, fun other => ?_⟩
    rw [hafter]
    cases hget : shelf.get? other with
    | none => rfl
    | some found =>
        rw [Option.map_some, Option.map_some, id_of_get? hget]

/-- Whether a change of one discussion is accepted or refused, and in whatever order storage hands
out discussions, the others stay listed as they are and in the same order. After a touch in a blog
all ids stay where they are, and so do those around every listed discussion. -/
theorem bystanders_keep_order (shelf : Shelf) (forum : Forum) (viewer : Viewer) (id : Id)
    (change : Change) (arrangement : Arrangement) (fails : Nat → Option Fault) :
    let after := (Trial.run ⟨.set id change, arrangement, fails⟩ shelf).2.1
    ∃ listed listedAfter,
      (∀ listing, shelf.run listing (list forum viewer) = (.ok listed, shelf)) ∧
      (∀ listing, after.run listing (list forum viewer) = (.ok listedAfter, after)) ∧
      (listedAfter.filter fun discussion => discussion.id ≠ id) =
        (listed.filter fun discussion => discussion.id ≠ id) ∧
      (forum.isBlogLike = true → ∀ time, change = .timeModified time →
        listedAfter.map (·.id) = listed.map (·.id) ∧
        ∀ target ∈ listed.map (·.id), ∀ browsing browsingAfter, ∃ found foundAfter,
          shelf.run browsing (neighbours forum viewer target) = (.ok found, shelf) ∧
          after.run browsingAfter (neighbours forum viewer target) = (.ok foundAfter, after) ∧
          foundAfter.prev.map (·.id) = found.prev.map (·.id) ∧
          foundAfter.next.map (·.id) = found.next.map (·.id)) := by
  intro after
  refine ⟨shown shelf forum viewer, shown after forum viewer, run_list, run_list,
    shown_filter_of_get? fun other hother => get?_run_set_of_ne hother change arrangement fails, ?_⟩
  rintro hblog time rfl
  obtain ⟨touched, hplaces, hafter⟩ :=
    exists_keepsPlaces_touch hblog shelf id time arrangement fails
  constructor
  · rw [shown_of_keepsPlaces hplaces hafter, hplaces.map_ids]
  · intro target hlisted browsing browsingAfter
    exact run_neighbours_of_keepsPlaces hplaces hafter hlisted browsing browsingAfter

/-- The latest reply goes to the older of two posts in a blog, which stays below the other. -/
theorem bystanders_keep_order_of_blog :
    let forum : Forum := { id := .ofNat 1, courseId := .ofNat 2, kind := .blog }
    let viewer : Viewer := .participant (.ofNat 7) default
    let posted (number : Nat) : Discussion :=
      .opened (.ofNat number) forum.id (.ofNat 8) (.ofSeconds number)
    let shelf := (Shelf.empty.insert (posted 11)).insert (posted 12)
    let after := (Trial.run ⟨.set (.ofNat 11) (.timeModified (.ofSeconds 99)), .ascending,
      fun _ => none⟩ shelf).2.1
    after.get? (.ofNat 11) = some { posted 11 with timeModified := .ofSeconds 99 } ∧
      ∃ found, after.run .ascending (neighbours forum viewer (.ofNat 11)) = (.ok found, after) ∧
        found.prev.map (·.id) = none ∧ found.next.map (·.id) = some (.ofNat 12) := by
  intro forum viewer posted shelf after
  obtain ⟨listed, _, hlist, -, -, hblog⟩ := bystanders_keep_order shelf forum viewer (.ofNat 11)
    (.timeModified (.ofSeconds 99)) .ascending fun _ => none
  have hlisted : (.ofNat 11 : Id) ∈ listed.map (·.id) := by
    have hshown := (hlist .ascending).symm.trans (run_list .ascending)
    have hstored : shelf.get? (.ofNat 11) = some (posted 11) := by decide +kernel
    rw [Except.ok.inj (congrArg Prod.fst hshown), id_mem_shown_iff hstored rfl]
    decide +kernel
  obtain ⟨found, foundAfter, hrun, hrunAfter, hprev, hnext⟩ :=
    (hblog rfl _ rfl).2 _ hlisted .ascending .ascending
  have hfound : (shelf.run .ascending (neighbours forum viewer (.ofNat 11))).1 =
      .ok { next := some (posted 12) } := by decide +kernel
  rw [hrun, Except.ok.injEq] at hfound
  subst hfound
  exact ⟨by decide +kernel, foundAfter, hrunAfter, hprev, hnext⟩

end Moderation

end DiscussionBoard
