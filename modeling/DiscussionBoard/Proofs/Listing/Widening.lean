import DiscussionBoard.Proofs.Listing.Order

/-!
# Wider views

A viewer with more capabilities, and a forum that enforces less, show more discussions. What was
listed before stays listed in the same order, with the new discussions between them.
-/

namespace DiscussionBoard

/-- The same user at the same moment, with no less that can be seen. -/
structure Viewer.AtMost (viewer stronger : Viewer) : Prop where
  userId : stronger.userId = viewer.userId
  now : stronger.now = viewer.now
  viewHiddenTimedPosts : viewer.viewHiddenTimedPosts = true → stronger.viewHiddenTimedPosts = true
  accessAllGroups : viewer.accessAllGroups = true → stronger.accessAllGroups = true
  groups : viewer.groups ⊆ stronger.groups
  activeGroup : stronger.activeGroup = none ∨ stronger.activeGroup = viewer.activeGroup

variable {viewer stronger : Viewer} {forum wider : Forum} {discussion : Discussion}
  {discussions : List Discussion}

namespace VisibilityRules

variable {rules : VisibilityRules}

theorem passesWindow_of_atMost (hviewer : viewer.AtMost stronger)
    (hpasses : rules.passesWindow viewer discussion = true) :
    rules.passesWindow stronger discussion = true := by
  simp only [passesWindow, Bool.or_eq_true, decide_eq_true_eq] at hpasses ⊢
  rw [hviewer.userId, hviewer.now]
  exact hpasses.imp_left (Or.imp_left (Or.imp_right hviewer.viewHiddenTimedPosts))

theorem passesGroups_of_atMost (hviewer : viewer.AtMost stronger)
    (hpasses : rules.passesGroups viewer discussion = true) :
    rules.passesGroups stronger discussion = true := by
  simp only [passesGroups, Bool.or_eq_true, Option.all_eq_true, Bool.and_eq_true] at hpasses ⊢
  refine hpasses.imp (Or.imp_right hviewer.accessAllGroups) fun hgroup group hdiscussion => ?_
  obtain ⟨hmember, hactive⟩ := hgroup group hdiscussion
  refine ⟨decide_eq_true (hviewer.groups (of_decide_eq_true hmember)), fun active hpicked => ?_⟩
  rcases hviewer.activeGroup with hnone | hsame
  · rw [hnone] at hpicked
    cases hpicked
  · exact hactive active (hsame ▸ hpicked)

end VisibilityRules

namespace Forum

theorem shows_of_atMost (hviewer : viewer.AtMost stronger)
    (hshows : forum.shows viewer discussion = true) : forum.shows stronger discussion = true := by
  rw [shows, VisibilityRules.isVisible, Bool.and_eq_true] at hshows ⊢
  exact ⟨VisibilityRules.passesWindow_of_atMost hviewer hshows.1,
    VisibilityRules.passesGroups_of_atMost hviewer hshows.2⟩

theorem shows_admin (forum : Forum) (userId : Id) (now : Instant) (discussion : Discussion) :
    forum.shows (.admin userId now) discussion = true := by
  simp [shows, VisibilityRules.isVisible, VisibilityRules.passesWindow,
    VisibilityRules.passesGroups, Viewer.admin]

theorem shows_of_untimed (hshows : forum.shows viewer discussion = true) :
    { forum with timedPosts := false }.shows viewer discussion = true := by
  rw [shows, VisibilityRules.isVisible, Bool.and_eq_true] at hshows ⊢
  exact ⟨rfl, hshows.2⟩

theorem shows_of_ungrouped {mode : GroupMode} (hmode : mode ≠ .separate)
    (hshows : forum.shows viewer discussion = true) :
    { forum with groupMode := mode }.shows viewer discussion = true := by
  rw [shows, VisibilityRules.isVisible, Bool.and_eq_true] at hshows ⊢
  refine ⟨hshows.1, ?_⟩
  simp [VisibilityRules.passesGroups, visibilityRules, hmode]

/-- What a forum lists to a viewer is what a second forum lists to a second viewer, less the
discussions that the first hides. -/
def ListsWithin (forum : Forum) (viewer : Viewer) (wider : Forum) (stronger : Viewer)
    (discussions : List Discussion) : Prop :=
  ∃ listed, wider.listing stronger discussions = .ok listed ∧
    forum.listing viewer discussions = .ok (listed.filter (forum.shows viewer))

/-- Ranks do not depend on what a forum enforces. -/
theorem ranked_congr (hkind : wider.kind = forum.kind) (discussions : List Discussion) :
    wider.ranked discussions = forum.ranked discussions := by
  have hrank : wider.rank = forum.rank := by
    funext discussion
    rw [rank, rank, isBlogLike, isBlogLike, hkind]
  rw [ranked, ranked, hrank]

theorem listsWithin_of_shows (hid : wider.id = forum.id) (hkind : wider.kind = forum.kind)
    (howned : ∀ discussion ∈ discussions, discussion.forumId = forum.id)
    (hshows : ∀ discussion, forum.shows viewer discussion = true →
      wider.shows stronger discussion = true) :
    forum.ListsWithin viewer wider stronger discussions := by
  have hownedWider : ∀ discussion ∈ discussions, discussion.forumId = wider.id := by
    rw [hid]
    exact howned
  refine ⟨_, listing_of_owned hownedWider, (listing_of_owned howned).trans (congrArg _ ?_)⟩
  have hboth : ∀ discussion, (forum.shows viewer discussion && wider.shows stronger discussion) =
      forum.shows viewer discussion := by
    intro discussion
    rw [Bool.and_eq_left_iff_imp]
    exact hshows discussion
  calc forum.ranked (discussions.filter (forum.shows viewer))
      = forum.ranked ((discussions.filter (wider.shows stronger)).filter (forum.shows viewer)) := by
        rw [List.filter_filter, List.filter_congr fun discussion _ => (hboth discussion).symm]
    _ = (forum.ranked (discussions.filter (wider.shows stronger))).filter (forum.shows viewer) :=
        ranked_filter _
    _ = (wider.ranked (discussions.filter (wider.shows stronger))).filter (forum.shows viewer) := by
        rw [ranked_congr hkind]

/-- More capability adds to a listing and reorders nothing, and so does a forum that stops enforcing
display windows or separating groups. Administrators are listed every discussion. Ids may be
repeated. -/
theorem capability_only_adds (forum : Forum) (viewer : Viewer) (discussions : List Discussion)
    (howned : ∀ discussion ∈ discussions, discussion.forumId = forum.id) :
    (∀ stronger, viewer.AtMost stronger → forum.ListsWithin viewer forum stronger discussions) ∧
    (∀ userId now, forum.ListsWithin viewer forum (.admin userId now) discussions ∧
      ∃ listed, forum.listing (.admin userId now) discussions = .ok listed ∧
        listed.Perm discussions) ∧
    forum.ListsWithin viewer { forum with timedPosts := false } viewer discussions ∧
    ∀ mode, mode ≠ .separate →
      forum.ListsWithin viewer { forum with groupMode := mode } viewer discussions := by
  refine ⟨fun stronger hviewer => ?_, fun userId now => ⟨?_, ?_⟩, ?_, fun mode hmode => ?_⟩
  · exact listsWithin_of_shows rfl rfl howned fun _ => shows_of_atMost hviewer
  · exact listsWithin_of_shows rfl rfl howned fun discussion _ =>
      forum.shows_admin userId now discussion
  · refine ⟨_, listing_of_owned howned, (forum.ranked_perm _).trans ?_⟩
    rw [List.filter_eq_self.mpr fun discussion _ => forum.shows_admin userId now discussion]
  · exact listsWithin_of_shows rfl rfl howned fun _ => shows_of_untimed
  · exact listsWithin_of_shows rfl rfl howned fun _ => shows_of_ungrouped hmode

/-- Three discussions under one id that tie in rank, of which the second is hidden from a viewer
without its group. -/
theorem capability_only_adds_of_repeated :
    let forum : Forum := { id := .ofNat 1, courseId := .ofNat 2, groupMode := .separate }
    let viewer : Viewer := { Viewer.participant (.ofNat 7) default with groups := [.ofNat 3] }
    let stronger : Viewer := { viewer with groups := [.ofNat 4, .ofNat 3] }
    let posted (author : Nat) (group : Option Id) : Discussion :=
      { Discussion.opened (.ofNat 11) forum.id (.ofNat author) default with groupId := group }
    let discussions := [posted 21 none, posted 22 (some (.ofNat 4)), posted 23 (some (.ofNat 3))]
    viewer.AtMost stronger ∧ forum.listing stronger discussions = .ok discussions ∧
      forum.listing viewer discussions =
        .ok [posted 21 none, posted 23 (some (.ofNat 3))] := by
  intro forum viewer stronger posted discussions
  have hviewer : viewer.AtMost stronger :=
    ⟨rfl, rfl, fun h => h, fun h => h, List.subset_cons_self _ _, .inl rfl⟩
  have howned : ∀ discussion ∈ discussions, discussion.forumId = forum.id := by decide +kernel
  have hshown : discussions.filter (forum.shows stronger) = discussions := by decide +kernel
  have hranked : forum.ranked discussions = discussions :=
    List.mergeSort_of_pairwise (by decide +kernel)
  have hlisted : forum.listing stronger discussions = .ok discussions := by
    rw [listing_of_owned howned, hshown, hranked]
  obtain ⟨listed, hstronger, hviewed⟩ :=
    (capability_only_adds forum viewer discussions howned).1 stronger hviewer
  obtain rfl := Except.ok.inj (hlisted.symm.trans hstronger)
  refine ⟨hviewer, hlisted, hviewed.trans (congrArg _ ?_)⟩
  decide +kernel

end Forum

end DiscussionBoard
