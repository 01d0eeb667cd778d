import DiscussionBoard.Proofs.Browsing.Arrangement

/-!
# Navigation along the list

The neighbours of a discussion are found by one pass over unsorted candidates, the list by sorting.
Both agree, so that a viewer who steps from each discussion to its neighbour walks along the list.
-/

namespace DiscussionBoard.Browsing

open DiscussionBoard.Shelf

variable {shelf : Shelf} {forum : Forum} {viewer : Viewer} {arrangement : Arrangement} {id : Id}

/-! ### When there are neighbours at all -/

theorem split_of_listed (hlisted : id ∈ (shown shelf forum viewer).map (·.id)) :
    ∃ before target after, shown shelf forum viewer = before ++ target :: after ∧ target.id = id := by
  obtain ⟨target, hmem, hid⟩ := List.mem_map.mp hlisted
  obtain ⟨before, after, hsplit⟩ := List.append_of_mem hmem
  exact ⟨before, target, after, hsplit, hid⟩

theorem run_neighbours_of_listed (arrangement : Arrangement)
    (hlisted : id ∈ (shown shelf forum viewer).map (·.id)) :
    ∃ found, shelf.run arrangement (neighbours forum viewer id) = (.ok found, shelf) := by
  obtain ⟨before, target, after, hsplit, rfl⟩ := split_of_listed hlisted
  exact ⟨_, run_neighbours_of_shown arrangement hsplit⟩

/-- A hidden discussion is answered like a missing one. -/
theorem run_neighbours_of_unlisted (hlocal : ¬shelf.HoldsElsewhere forum.id id)
    (hunlisted : id ∉ (shown shelf forum viewer).map (·.id)) :
    shelf.run arrangement (neighbours forum viewer id) =
      (.error (.discussionNotFound id), shelf) := by
  cases hget : shelf.get? id with
  | none => exact run_neighbours_of_missing arrangement hget
  | some target =>
      have howned : target.forumId = forum.id :=
        Decidable.byContradiction fun helsewhere => hlocal ⟨target, hget, helsewhere⟩
      rw [id_mem_shown_iff hget howned, Bool.not_eq_true] at hunlisted
      exact run_neighbours_of_hidden arrangement hget howned hunlisted

theorem run_neighbours_eq_notFound_iff (hlocal : ¬shelf.HoldsElsewhere forum.id id) :
    (shelf.run arrangement (neighbours forum viewer id)).1 = .error (.discussionNotFound id) ↔
      id ∉ (shown shelf forum viewer).map (·.id) := by
  constructor
  · intro hrefused hlisted
    obtain ⟨found, hfound⟩ := run_neighbours_of_listed arrangement hlisted
    rw [hfound] at hrefused
    cases hrefused
  · exact fun hunlisted => congrArg Prod.fst (run_neighbours_of_unlisted hlocal hunlisted)

theorem run_neighbours_eq_foreign_iff :
    (∃ discussion owner asked, (shelf.run arrangement (neighbours forum viewer id)).1 =
      .error (.foreignDiscussion discussion owner asked)) ↔ shelf.HoldsElsewhere forum.id id := by
  constructor
  · rintro ⟨discussion, owner, asked, hforeign⟩
    by_contra hlocal
    by_cases hlisted : id ∈ (shown shelf forum viewer).map (·.id)
    · obtain ⟨found, hfound⟩ := run_neighbours_of_listed arrangement hlisted
      rw [hfound] at hforeign
      cases hforeign
    · rw [run_neighbours_of_unlisted hlocal hlisted] at hforeign
      cases hforeign
  · rintro ⟨target, hget, helsewhere⟩
    exact ⟨id, target.forumId, forum.id,
      congrArg Prod.fst (run_neighbours_of_elsewhere arrangement hget helsewhere)⟩

/-! ### Walking along -/

/-- The discussions passed on the way from a first one, each found on one side of the one before,
until a discussion has none on that side. -/
inductive Trail (around : Id → Except Fault Neighbours)
    (side : Neighbours → Option Discussion) : Discussion → List Discussion → Prop
  | last {discussion : Discussion} {found : Neighbours} :
      around discussion.id = .ok found → side found = none →
      Trail around side discussion [discussion]
  | step {discussion next : Discussion} {found : Neighbours} {rest : List Discussion} :
      around discussion.id = .ok found → side found = some next → Trail around side next rest →
      Trail around side discussion (discussion :: rest)

namespace Trail

variable {around : Id → Except Fault Neighbours} {side : Neighbours → Option Discussion}
  {start : Discussion} {passed others listed before after : List Discussion}

/-- There is only one way. -/
theorem unique (hpassed : Trail around side start passed)
    (hothers : Trail around side start others) : passed = others := by
  induction hpassed generalizing others with
  | last hfound hnone =>
      cases hothers with
      | last => rfl
      | step hfound' hsome =>
          rw [hfound] at hfound'
          cases hfound'
          rw [hnone] at hsome
          cases hsome
  | step hfound hsome _ ih =>
      cases hothers with
      | last hfound' hnone =>
          rw [hfound] at hfound'
          cases hfound'
          rw [hnone] at hsome
          cases hsome
      | step hfound' hsome' hrest =>
          rw [hfound] at hfound'
          cases hfound'
          rw [hsome] at hsome'
          cases hsome'
          rw [ih hrest]

section Listed

variable (haround : ∀ before target after, listed = before ++ target :: after →
  around target.id = .ok ⟨after.head?, before.getLast?⟩)
include haround

theorem prev_of_listed (hlisted : listed = before ++ start :: after) :
    Trail around (·.prev) start (start :: after) := by
  induction after generalizing before start with
  | nil => exact .last (haround before start [] hlisted) rfl
  | cons next rest ih =>
      have hnext : listed = (before ++ [start]) ++ next :: rest := by
        rw [hlisted, List.append_assoc]
        rfl
      exact .step (haround before start (next :: rest) hlisted) rfl (ih hnext)

theorem next_of_listed (hlisted : listed = before ++ start :: after) :
    Trail around (·.next) start (start :: before.reverse) := by
  induction before using List.reverseRecOn generalizing start after with
  | nil => exact .last (haround [] start after hlisted) rfl
  | append_singleton front next ih =>
      have hnext : listed = front ++ next :: (start :: after) := by
        rw [hlisted, List.append_assoc]
        rfl
      rw [List.reverse_append]
      exact .step (haround (front ++ [next]) start after hlisted) List.getLast?_concat (ih hnext)

end Listed

end Trail

/-- Whatever the order of storage in each request, a discussion of another forum is a fault, one
that the list lacks is not found, and the neighbours of a listed one stand beside it in the list.
Stepping down from the head of the list passes the list, and stepping up from its end passes the
list backwards. -/
theorem neighbours_agree_with_list (shelf : Shelf) (forum : Forum) (viewer : Viewer)
    (listing : Arrangement) (browsing : Id → Arrangement) :
    let around id := (shelf.run (browsing id) (neighbours forum viewer id)).1
    ∃ listed, shelf.run listing (list forum viewer) = (.ok listed, shelf) ∧
      (∀ id, (∃ discussion owner asked,
          around id = .error (.foreignDiscussion discussion owner asked)) ↔
        shelf.HoldsElsewhere forum.id id) ∧
      (∀ id, ¬shelf.HoldsElsewhere forum.id id →
        (around id = .error (.discussionNotFound id) ↔ id ∉ listed.map (·.id))) ∧
      (∀ before target after, listed = before ++ target :: after →
        around target.id = .ok ⟨after.head?, before.getLast?⟩) ∧
      (listed.map (·.id)).Nodup ∧
      (∀ head ∈ listed.head?, ∀ passed,
        Trail around (·.prev) head passed ↔ passed = listed) ∧
      ∀ last ∈ listed.getLast?, ∀ passed,
        Trail around (·.next) last passed ↔ passed = listed.reverse := by
  intro around
  have haround : ∀ before target after, shown shelf forum viewer = before ++ target :: after →
      around target.id = .ok ⟨after.head?, before.getLast?⟩ := fun before target after hlisted =>
    congrArg Prod.fst (run_neighbours_of_shown (browsing target.id) hlisted)
  refine ⟨shown shelf forum viewer, run_list listing, fun id => run_neighbours_eq_foreign_iff,
    fun id hlocal => run_neighbours_eq_notFound_iff hlocal, haround, nodup_shown, ?_, ?_⟩
  · intro head hhead passed
    obtain ⟨rest, hlisted⟩ := List.head?_eq_some_iff.mp hhead
    have htrail : Trail around (·.prev) head (shown shelf forum viewer) := by
      have hsplit : shown shelf forum viewer = [] ++ head :: rest := hlisted
      rw [hlisted]
      exact Trail.prev_of_listed haround hsplit
    constructor
    · exact fun hpassed => hpassed.unique htrail
    · rintro rfl
      exact htrail
  · intro last hlast passed
    obtain ⟨front, hlisted⟩ := List.getLast?_eq_some_iff.mp hlast
    have htrail : Trail around (·.next) last (shown shelf forum viewer).reverse := by
      rw [hlisted, List.reverse_concat]
      exact Trail.next_of_listed haround hlisted
    constructor
    · exact fun hpassed => hpassed.unique htrail
    · rintro rfl
      exact htrail

end DiscussionBoard.Browsing
