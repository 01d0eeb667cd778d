import DiscussionBoard.Proofs.Subscription.Erasure
import DiscussionBoard.Proofs.Subscription.ForumChange

/-!
# Enrolment in forums

Enrolment adds the user's followings of the listed forums that start subscribed, and its end removes
all that is recorded for the user under a listed forum. A list may name a forum more than once, and
what it names may be there already or gone already: each row is counted once, when it comes or goes.
-/

namespace DiscussionBoard.Subscription

variable {owner : Id → Id} {enabled : Bool} {desk : Desk} {user : Id} {forums : List Forum}

/-- A listed forum in which users are subscribed on enrolment has this id. -/
def StartsSubscribed (forums : List Forum) (id : Id) : Prop :=
  ∃ forum ∈ forums, forum.subscriptionMode = .initial ∧ forum.id = id

theorem startsSubscribed_cons {forum : Forum} {id : Id} :
    StartsSubscribed (forum :: forums) id ↔
      (forum.subscriptionMode = .initial ∧ forum.id = id) ∨ StartsSubscribed forums id := by
  simp [StartsSubscribed]

namespace Rows

variable {rows middle after : Rows}

theorem follows_iff_mem {user forum : Id} :
    rows.follows user forum = true ↔ ⟨user, forum⟩ ∈ rows.followings.toList :=
  KeySet.mem_toList_iff.symm

/-! ### Rows that come -/

/-- Followings that pass a test are there besides the old ones, and this many of them are new. -/
structure Gains (rows : Rows) (following : Following → Prop) (added : Nat) (after : Rows) :
    Prop where
  followings : ∀ row,
    row ∈ after.followings.toList ↔ row ∈ rows.followings.toList ∨ following row
  overrides : after.overrides = rows.overrides
  added : after.followings.size = rows.followings.size + added

theorem Gains.congr {following same : Following → Prop} {added : Nat}
    (hgains : rows.Gains following added after) (hsame : ∀ row, same row ↔ following row) :
    rows.Gains same added after where
  followings row := by rw [hgains.followings, hsame]
  overrides := hgains.overrides
  added := hgains.added

theorem Gains.refl (rows : Rows) : rows.Gains (fun _ => False) 0 rows where
  followings row := by rw [or_false]
  overrides := rfl
  added := rfl

theorem Gains.trans {first second : Following → Prop} {added others : Nat}
    (hfirst : rows.Gains first added middle) (hsecond : middle.Gains second others after) :
    rows.Gains (fun row => first row ∨ second row) (added + others) after where
  followings row := by rw [hsecond.followings, hfirst.followings, or_assoc]
  overrides := hsecond.overrides.trans hfirst.overrides
  added := by rw [hsecond.added, hfirst.added, Nat.add_assoc]

theorem gains_follow (rows : Rows) (user forum : Id) :
    rows.Gains (· = ⟨user, forum⟩) (rows.follow user forum).1.toNat (rows.follow user forum).2 where
  followings row := by
    rw [KeySet.mem_toList_iff, KeySet.mem_toList_iff, or_comm]
    exact KeySet.contains_insert rows.followings ⟨user, forum⟩ row
  overrides := rfl
  added := Table.size_insert rows.followings ⟨user, forum⟩ ()

theorem gains_enrolled (rows : Rows) (user : Id) (forums : List Forum) :
    rows.Gains (fun row => row.userId = user ∧ StartsSubscribed forums row.forumId)
      (rows.enrolled user forums).1 (rows.enrolled user forums).2 := by
  induction forums generalizing rows with
  | nil => exact (Gains.refl rows).congr fun row => by simp [StartsSubscribed]
  | cons forum rest ih =>
      unfold enrolled
      split
      · rename_i hmode
        refine ((rows.gains_follow user forum.id).trans (ih _)).congr fun row => ?_
        rw [startsSubscribed_cons, and_iff_right hmode, and_or_left, eq_comm (a := forum.id)]
        cases row
        rw [Following.mk.injEq]
      · rename_i hmode
        refine (ih rows).congr fun row => ?_
        rw [startsSubscribed_cons, or_iff_right fun h => hmode h.1]

/-! ### Rows that go -/

theorem nodup_values (rows : Rows) : rows.overrides.values.Nodup := by
  have hkeys : rows.overrides.values.map Override.key = rows.overrides.keys := by
    rw [Table.values, List.map_map, Table.keys]
    refine List.map_congr_left fun entry hentry => ?_
    exact rows.keyed (Table.get?_eq_some_iff.mpr hentry)
  have hnodup : (rows.overrides.values.map Override.key).Nodup := by
    rw [hkeys]
    exact rows.overrides.nodup_keys
  exact (List.pairwise_map.mp hnodup).imp fun hne hsame => hne (congrArg Override.key hsame)

/-- What passes one of two tests is counted by the first, and by the second among what fails the
first. -/
theorem countP_or {α : Type} {all left : List α} {first second : α → Bool} (hall : all.Nodup)
    (hleft : left.Nodup) (hmem : ∀ row, row ∈ left ↔ row ∈ all ∧ first row = false) :
    all.countP (fun row => first row || second row) = all.countP first + left.countP second := by
  have hperm : left.Perm (all.filter fun row => !first row) := by
    refine (List.perm_ext_iff_of_nodup hleft (hall.filter _)).mpr fun row => ?_
    rw [hmem, List.mem_filter, Bool.not_eq_true']
  have hpass : (all.filter first).countP (fun row => first row || second row) = all.countP first := by
    rw [List.countP_filter]
    exact List.countP_congr fun row _ => by cases first row <;> simp
  have hfail : (all.filter fun row => !first row).countP (fun row => first row || second row) =
      (all.filter fun row => !first row).countP second := by
    rw [List.countP_filter, List.countP_filter]
    exact List.countP_congr fun row _ => by cases first row <;> simp
  calc all.countP (fun row => first row || second row)
      = (all.filter first).countP (fun row => first row || second row) +
          (all.filter fun row => !first row).countP (fun row => first row || second row) :=
        List.countP_eq_countP_filter_add all _ first
    _ = all.countP first + left.countP second := by rw [hpass, hfail, hperm.countP_eq]

theorem Loses.trans {first second : Following → Bool} {firstOverride secondOverride : Override → Bool}
    {removed others : Nat} (hfirst : rows.Loses first firstOverride removed middle)
    (hsecond : middle.Loses second secondOverride others after) :
    rows.Loses (fun row => first row || second row)
      (fun row => firstOverride row || secondOverride row) (removed + others) after where
  followings row := by
    rw [hsecond.followings, hfirst.followings, and_assoc, Bool.or_eq_false_iff]
  overrides row := by
    rw [hsecond.overrides, hfirst.overrides, and_assoc, Bool.or_eq_false_iff]
  removed := by
    rw [hfirst.removed, hsecond.removed, count, count, count,
      countP_or (KeySet.nodup_toList _) (KeySet.nodup_toList _) hfirst.followings,
      countP_or rows.nodup_values middle.nodup_values hfirst.overrides]
    omega

theorem loses_unfollow (rows : Rows) (user forum : Id) :
    rows.Loses (· = ⟨user, forum⟩) (fun _ => false) (rows.unfollow user forum).1.toNat
      (rows.unfollow user forum).2 where
  followings row := by
    rw [KeySet.mem_toList_iff, KeySet.mem_toList_iff, and_comm, decide_eq_false_iff_not]
    exact KeySet.contains_erase rows.followings ⟨user, forum⟩ row
  overrides _ := (and_iff_left rfl).symm
  removed := by
    have hfollows : rows.follows user forum = decide (⟨user, forum⟩ ∈ rows.followings.toList) := by
      rw [Bool.eq_iff_iff, decide_eq_true_iff, follows_iff_mem]
    have hcount : rows.followings.toList.countP (fun row => decide (row = ⟨user, forum⟩)) =
        if ⟨user, forum⟩ ∈ rows.followings.toList then 1 else 0 :=
      List.Nodup.count (KeySet.nodup_toList rows.followings)
    rw [unfollow, hfollows, count, hcount]
    by_cases hmem : ⟨user, forum⟩ ∈ rows.followings.toList <;> simp [hmem]

theorem loses_clearOverrides (rows : Rows) (user forum : Id) :
    rows.Loses (fun _ => false) (fun row => row.userId = user && row.forumId = forum)
      (rows.clearOverrides user forum).1 (rows.clearOverrides user forum).2 where
  followings _ := (and_iff_left rfl).symm
  overrides row := by
    rw [mem_values_iff, mem_values_iff, overrideOf_clearOverrides_iff]
    simp
  removed := fst_clearOverrides

theorem Loses.congr {following same : Following → Bool} {override sameOverride : Override → Bool}
    {removed : Nat} (hloses : rows.Loses following override removed after)
    (hfollowing : ∀ row, same row = following row)
    (hoverride : ∀ row, sameOverride row = override row) :
    rows.Loses same sameOverride removed after := by
  obtain rfl : same = following := funext hfollowing
  obtain rfl : sameOverride = override := funext hoverride
  exact hloses

theorem Loses.refl (rows : Rows) : rows.Loses (fun _ => false) (fun _ => false) 0 rows where
  followings _ := (and_iff_left rfl).symm
  overrides _ := (and_iff_left rfl).symm
  removed := by simp [count]

/-- Every row of the user under a listed forum goes, and goes once. -/
theorem loses_unenrolled (rows : Rows) (user : Id) (forums : List Forum) :
    rows.Loses (fun row => row.userId = user && row.forumId ∈ forums.map (·.id))
      (fun row => row.userId = user && row.forumId ∈ forums.map (·.id))
      (rows.unenrolled user forums).1 (rows.unenrolled user forums).2 := by
  induction forums generalizing rows with
  | nil => exact (Loses.refl rows).congr (fun row => by simp) fun row => by simp
  | cons forum rest ih =>
      have hloses := ((rows.loses_unfollow user forum.id).trans
        (loses_clearOverrides _ user forum.id)).trans (ih _)
      refine hloses.congr (fun row => ?_) fun row => ?_
      · cases row
        simp [Bool.and_or_distrib_left]
      · simp [Bool.and_or_distrib_left]

end Rows

/-- What becomes of a desk when a user is enrolled in forums. -/
structure Enrolment (owner : Id → Id) (before after : Desk) (user : Id) (forums : List Forum)
    (added : Nat) : Prop where
  rows : before.rows.Gains (fun row => row.userId = user ∧ StartsSubscribed forums row.forumId) added
    after.rows
  answers : ∀ forum ∈ forums, forum.subscriptionMode = .initial →
    after.Finds (isSubscribed user forum none) true
  others : ∀ (other : Id) (place : Forum) (asked : Option Id),
    (∀ found, asked = some found → owner found = place.id) →
    ¬(other = user ∧ StartsSubscribed forums place.id) →
    before.FindsLike after (isSubscribed other place asked)

/-- What becomes of a desk when the enrolment of a user in forums ends. -/
structure Unenrolment (owner : Id → Id) (before after : Desk) (user : Id) (forums : List Forum)
    (removed : Nat) : Prop where
  rows : before.rows.Loses (fun row => row.userId = user && row.forumId ∈ forums.map (·.id))
    (fun row => row.userId = user && row.forumId ∈ forums.map (·.id)) removed after.rows
  answers : ∀ forum ∈ forums, forum.subscriptionMode.isOptional = true → ∀ asked,
    (∀ found, asked = some found → owner found = forum.id) →
    after.Finds (isSubscribed user forum asked) false

theorem enrolment_of_orderly {after : Desk} {added : Nat} (hdesk : desk.Orderly owner)
    (hafter : after.Orderly owner) (hregister : after.register = desk.register)
    (hrows : desk.rows.Gains
      (fun row => row.userId = user ∧ StartsSubscribed forums row.forumId) added after.rows) :
    Enrolment owner desk after user forums added where
  rows := hrows
  answers forum hforum hmode := by
    have hfinds := hafter.finds_isSubscribed user forum none nofun
    have hoptional : forum.subscriptionMode.isOptional = true := by rw [hmode]; rfl
    have hfollows : after.rows.follows user forum.id = true :=
      Rows.follows_iff_mem.mpr ((hrows.followings _).mpr (.inr ⟨rfl, forum, hforum, hmode, rfl⟩))
    rwa [Rows.isSubscribed, Rows.forumLevel_of_isOptional hoptional, hfollows] at hfinds
  others other place asked howner hbeside := by
    have hfinds := hafter.finds_isSubscribed other place asked howner
    have hfollows : after.rows.follows other place.id = desk.rows.follows other place.id := by
      rw [Bool.eq_iff_iff, Rows.follows_iff_mem, Rows.follows_iff_mem, hrows.followings]
      exact or_iff_left hbeside
    rw [hregister, Rows.isSubscribed_congr hfollows fun found _ => by
      rw [Rows.overrideOf, hrows.overrides, Rows.overrideOf]] at hfinds
    exact ⟨_, hdesk.finds_isSubscribed other place asked howner, hfinds⟩

theorem unenrolment_of_orderly {after : Desk} {removed : Nat} (hafter : after.Orderly owner)
    (hrows : desk.rows.Loses (fun row => row.userId = user && row.forumId ∈ forums.map (·.id))
      (fun row => row.userId = user && row.forumId ∈ forums.map (·.id)) removed after.rows) :
    Unenrolment owner desk after user forums removed where
  rows := hrows
  answers forum hforum hmode asked howner := by
    have hlisted : forum.id ∈ forums.map (·.id) := List.mem_map_of_mem hforum
    have hfollows : after.rows.follows user forum.id = false := by
      rw [Bool.eq_false_iff]
      intro hfollows
      have hgone := ((hrows.followings _).mp (Rows.follows_iff_mem.mp hfollows)).2
      simp [hlisted] at hgone
    have hstored : ∀ found, asked = some found → after.rows.overrideOf user found = none := by
      intro found hfound
      refine Option.eq_none_iff_forall_ne_some.mpr fun override hget => ?_
      -- An override for a discussion of the forum is recorded under it, so it is gone.
      have hforum : override.forumId = forum.id :=
        (hafter.owned user found override hget).trans (howner found hfound)
      obtain ⟨rfl, rfl⟩ := Rows.key_of_overrideOf hget
      have hgone := ((hrows.overrides override).mp (Rows.mem_values_iff.mpr hget)).2
      simp [hforum, hlisted] at hgone
    have hfinds := hafter.finds_isSubscribed user forum asked howner
    rwa [Rows.isSubscribed_of_absent hmode _ hfollows hstored] at hfinds

/-- Enrolment in any list of forums, and its end, come to an end on a reachable desk and count the
rows that they add or remove. From an enrolment on the user is subscribed to the listed forums that
start subscribed, and from its end on to nothing in a listed forum where users may choose. -/
theorem enrolment_does_what_it_counts (hdesk : desk.Reachable owner enabled) (user : Id)
    (forums : List Forum) :
    (∃ added after, desk.run (enrolled user forums) = (.ok added, after) ∧
      Enrolment owner desk after user forums added) ∧
    ∃ removed after, desk.run (unenrolled user forums) = (.ok removed, after) ∧
      Unenrolment owner desk after user forums removed := by
  have horderly := hdesk.orderly
  constructor
  · obtain ⟨cache, hrun, hafter⟩ := horderly.run_settled (settles_enrolled desk user forums) default
      (.enrolled user forums) rfl trivial
    exact ⟨_, _, hrun, enrolment_of_orderly horderly hafter rfl (Rows.gains_enrolled _ _ _)⟩
  · obtain ⟨cache, hrun, hafter⟩ := horderly.run_settled (settles_unenrolled desk user forums) default
      (.unenrolled user forums) rfl trivial
    exact ⟨_, _, hrun, unenrolment_of_orderly hafter (Rows.loses_unenrolled _ _ _)⟩

theorem enrolment_does_what_it_counts_of_repeated :
    let forum (id : Nat) (mode : SubscriptionMode) : Forum :=
      { id := .ofNat id, courseId := .ofNat 9, subscriptionMode := mode }
    let forums := [forum 1 .initial, forum 2 .choose, forum 3 .initial, forum 1 .initial]
    let following := (Desk.run ⟨.empty, {}, { enabled := true }⟩
      ((Call.subscribe (.ofNat 7) (forum 3 .initial) none true).program default)).2
    let desk := (following.run
      ((Call.subscribe (.ofNat 7) (forum 2 .choose) (some (.ofNat 5)) true).program default)).2
    (∃ after, desk.run (enrolled (.ofNat 7) forums) = (.ok 1, after) ∧
      after.Finds (isSubscribed (.ofNat 7) (forum 1 .initial) none) true) ∧
    ∃ after, desk.run (unenrolled (.ofNat 7) forums) = (.ok 2, after) ∧
      after.Finds (isSubscribed (.ofNat 7) (forum 2 .choose) (some (.ofNat 5))) false := by
  intro forum forums following desk
  have hfollowing : following.Reachable (fun _ => .ofNat 2) true := .call .start default trivial
  have hdesk : desk.Reachable (fun _ => .ofNat 2) true := .call hfollowing default rfl
  obtain ⟨⟨added, enrolledDesk, hrun, henrolment⟩, removed, left, hrunEnd, hunenrolment⟩ :=
    enrolment_does_what_it_counts hdesk (.ofNat 7) forums
  have hadded : (desk.run (enrolled (.ofNat 7) forums)).1.toOption = some 1 := by decide +kernel
  have hremoved : (desk.run (unenrolled (.ofNat 7) forums)).1.toOption = some 2 := by decide +kernel
  rw [hrun] at hadded
  rw [hrunEnd] at hremoved
  cases hadded
  cases hremoved
  exact ⟨⟨enrolledDesk, hrun, henrolment.answers _ (by simp [forums]) rfl⟩,
    left, hrunEnd, hunenrolment.answers (forum 2 .choose) (by simp [forums]) rfl _
      (owner_of_some rfl)⟩

end DiscussionBoard.Subscription
