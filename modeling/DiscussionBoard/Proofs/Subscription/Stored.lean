import DiscussionBoard.Proofs.Table
import DiscussionBoard.Subscription.Desk

/-!
# What stored rows show

Rows are known by two look-ups: who follows which forum, and the override of a user for a
discussion. All lists read off the rows are fixed by these two, and every change is told by what it
does to them.
-/

namespace DiscussionBoard.Subscription

theorem Preference.ne_iff_eq_opposite {a b : Preference} : a ≠ b ↔ a = b.opposite := by
  cases a <;> cases b <;> decide

namespace Rows

variable {rows : Rows} {user forum discussion : Id}

theorem mem_followersOf_iff : user ∈ rows.followersOf forum ↔ rows.follows user forum = true := by
  rw [followersOf, follows, Table.contains_eq_true_iff, List.mem_map]
  constructor
  · rintro ⟨following, hfiltered, rfl⟩
    obtain ⟨hmem, hforum⟩ := List.mem_filter.mp hfiltered
    have hforum : following.forumId = forum := by simpa using hforum
    subst hforum
    exact hmem
  · intro hmem
    exact ⟨⟨user, forum⟩, List.mem_filter.mpr ⟨hmem, by simp⟩, rfl⟩

theorem key_of_overrideOf {override : Override} (h : rows.overrideOf user discussion = some override) :
    override.userId = user ∧ override.discussionId = discussion := by
  have hkey := rows.keyed h
  simpa [Override.key] using hkey

theorem mem_values_iff {override : Override} :
    override ∈ rows.overrides.values ↔
      rows.overrideOf override.userId override.discussionId = some override := by
  rw [Table.mem_values_iff]
  constructor
  · rintro ⟨key, hget⟩
    have hkey := rows.keyed hget
    subst hkey
    exact hget
  · intro h
    exact ⟨_, h⟩

/-- Overrides that a name tells apart are listed with different names. -/
theorem nodup_map_filter_values (keep : Override → Bool) (name : Override → Id)
    (hname : ∀ a b, keep a = true → keep b = true → name a = name b → a.key = b.key) :
    ((rows.overrides.values.filter keep).map name).Nodup := by
  rw [List.Nodup, List.pairwise_map, List.pairwise_filter, Table.values, List.pairwise_map]
  refine rows.overrides.sorted.imp_of_mem ?_
  intro a b ha hb hlt hakeep hbkeep hsame
  have hakey : a.2.key = a.1 := rows.keyed (Table.get?_eq_some_iff.mpr ha)
  have hbkey : b.2.key = b.1 := rows.keyed (Table.get?_eq_some_iff.mpr hb)
  have hkeys := hname a.2 b.2 hakeep hbkeep hsame
  rw [hakey, hbkey] at hkeys
  rw [hkeys] at hlt
  exact Nat.lt_irrefl _ hlt

theorem mem_overridesOf_iff {preference : Preference} :
    (discussion, preference) ∈ rows.overridesOf user forum ↔
      ∃ override, rows.overrideOf user discussion = some override ∧ override.forumId = forum ∧
        override.preference = preference := by
  rw [overridesOf, List.mem_map]
  constructor
  · rintro ⟨override, hfiltered, hpair⟩
    obtain ⟨hmem, hkeep⟩ := List.mem_filter.mp hfiltered
    obtain ⟨rfl, rfl⟩ := Prod.mk.inj hpair
    obtain ⟨rfl, hforum⟩ : override.userId = user ∧ override.forumId = forum := by simpa using hkeep
    exact ⟨override, mem_values_iff.mp hmem, hforum, rfl⟩
  · rintro ⟨override, hget, hforum, rfl⟩
    obtain ⟨rfl, rfl⟩ := key_of_overrideOf hget
    exact ⟨override, List.mem_filter.mpr ⟨mem_values_iff.mpr hget, by simp [hforum]⟩, rfl⟩

theorem nodup_overridesOf (rows : Rows) (user forum : Id) :
    ((rows.overridesOf user forum).map (·.1)).Nodup := by
  rw [overridesOf, List.map_map]
  apply nodup_map_filter_values
  intro a b ha hb hsame
  obtain ⟨hauser, -⟩ : a.userId = user ∧ a.forumId = forum := by simpa using ha
  obtain ⟨hbuser, -⟩ : b.userId = user ∧ b.forumId = forum := by simpa using hb
  exact Prod.ext (hauser.trans hbuser.symm) hsame

theorem mem_overridesFor_iff {preference : Preference} :
    (user, preference) ∈ rows.overridesFor discussion ↔
      ∃ override, rows.overrideOf user discussion = some override ∧
        override.preference = preference := by
  rw [overridesFor, List.mem_map]
  constructor
  · rintro ⟨override, hfiltered, hpair⟩
    obtain ⟨hmem, hkeep⟩ := List.mem_filter.mp hfiltered
    obtain ⟨rfl, rfl⟩ := Prod.mk.inj hpair
    have hdiscussion : override.discussionId = discussion := by simpa using hkeep
    subst hdiscussion
    exact ⟨override, mem_values_iff.mp hmem, rfl⟩
  · rintro ⟨override, hget, rfl⟩
    obtain ⟨rfl, rfl⟩ := key_of_overrideOf hget
    exact ⟨override, List.mem_filter.mpr ⟨mem_values_iff.mpr hget, by simp⟩, rfl⟩

theorem nodup_overridesFor (rows : Rows) (discussion : Id) :
    ((rows.overridesFor discussion).map (·.1)).Nodup := by
  rw [overridesFor, List.map_map]
  apply nodup_map_filter_values
  intro a b ha hb hsame
  have hadiscussion : a.discussionId = discussion := by simpa using ha
  have hbdiscussion : b.discussionId = discussion := by simpa using hb
  exact Prod.ext hsame (hadiscussion.trans hbdiscussion.symm)

/-! ### What changes do to the two look-ups -/

variable {otherUser otherForum otherDiscussion : Id}

theorem follows_follow :
    (rows.follow user forum).2.follows otherUser otherForum = true ↔
      (otherUser = user ∧ otherForum = forum) ∨ rows.follows otherUser otherForum = true := by
  rw [follow, follows, KeySet.contains_insert, Following.mk.injEq]
  rfl

theorem follows_unfollow :
    (rows.unfollow user forum).2.follows otherUser otherForum = true ↔
      ¬(otherUser = user ∧ otherForum = forum) ∧ rows.follows otherUser otherForum = true := by
  rw [unfollow, follows, KeySet.contains_erase, ne_eq, Following.mk.injEq]
  rfl

theorem follows_keepFollowings (keep : Following → Bool) :
    (rows.keepFollowings keep).follows user forum = true ↔
      keep ⟨user, forum⟩ = true ∧ rows.follows user forum = true := by
  rw [keepFollowings, follows, KeySet.contains_filter]
  rfl

theorem overrideOf_keepOverrides (keep : Override → Bool) :
    (rows.keepOverrides keep).overrideOf user discussion =
      (rows.overrideOf user discussion).filter keep :=
  Table.get?_filter _ _ _

theorem overrideOf_insertOverride_self (override : Override) :
    (rows.insertOverride override).overrideOf override.userId override.discussionId =
      some override :=
  Table.get?_insert_self _ _ _

theorem overrideOf_insertOverride_of_ne {override : Override}
    (hne : (user, discussion) ≠ override.key) :
    (rows.insertOverride override).overrideOf user discussion = rows.overrideOf user discussion :=
  Table.get?_insert_of_ne _ _ hne

theorem overrideOf_putOverride_of_ne {override : Override}
    (hne : (user, discussion) ≠ override.key) :
    (rows.putOverride override).2.overrideOf user discussion = rows.overrideOf user discussion := by
  rw [putOverride]
  split
  · rfl
  · exact overrideOf_insertOverride_of_ne hne

theorem overrideOf_dropOverride_iff {override : Override} :
    (rows.dropOverride user discussion).2.overrideOf otherUser otherDiscussion = some override ↔
      rows.overrideOf otherUser otherDiscussion = some override ∧
        (otherUser, otherDiscussion) ≠ (user, discussion) := by
  rw [dropOverride, overrideOf_keepOverrides, Option.filter_eq_some_iff]
  refine and_congr_right fun hget => ?_
  obtain ⟨rfl, rfl⟩ := key_of_overrideOf hget
  simp [Override.key, Decidable.imp_iff_not_or]

theorem overrideOf_clearOverrides_iff {override : Override} :
    (rows.clearOverrides user forum).2.overrideOf otherUser discussion = some override ↔
      rows.overrideOf otherUser discussion = some override ∧
        ¬(otherUser = user ∧ override.forumId = forum) := by
  rw [clearOverrides, removed, overrideOf_keepOverrides, Option.filter_eq_some_iff]
  refine and_congr_right fun hget => ?_
  obtain ⟨rfl, -⟩ := key_of_overrideOf hget
  simp [Decidable.imp_iff_not_or]

theorem overrideOf_eraseUser_iff {override : Override} :
    (rows.eraseUser user).2.overrideOf otherUser discussion = some override ↔
      rows.overrideOf otherUser discussion = some override ∧ otherUser ≠ user := by
  rw [eraseUser, removed, overrideOf_keepOverrides, Option.filter_eq_some_iff]
  refine and_congr_right fun hget => ?_
  have hstored : rows.overrideOf otherUser discussion = some override := hget
  have huser : override.userId = otherUser := (key_of_overrideOf hstored).1
  simp [huser]

theorem overrideOf_eraseForum_iff {override : Override} :
    (rows.eraseForum forum).2.overrideOf user discussion = some override ↔
      rows.overrideOf user discussion = some override ∧ override.forumId ≠ forum := by
  rw [eraseForum, removed, overrideOf_keepOverrides, Option.filter_eq_some_iff]
  exact and_congr_right fun _ => by simp

theorem follows_eraseUser :
    (rows.eraseUser user).2.follows otherUser otherForum = true ↔
      rows.follows otherUser otherForum = true ∧ otherUser ≠ user := by
  rw [and_comm]
  exact (follows_keepFollowings _).trans (by simp)

theorem follows_eraseForum :
    (rows.eraseForum forum).2.follows otherUser otherForum = true ↔
      rows.follows otherUser otherForum = true ∧ otherForum ≠ forum := by
  rw [and_comm]
  exact (follows_keepFollowings _).trans (by simp)

/-! ### How many rows go -/

/-- The number of followings and of overrides that pass a test each. -/
def count (rows : Rows) (following : Following → Bool) (override : Override → Bool) : Nat :=
  rows.followings.toList.countP following + rows.overrides.values.countP override

theorem removed_keep (keepFollowing : Following → Bool) (keepOverride : Override → Bool) :
    (rows.removed ((rows.keepFollowings keepFollowing).keepOverrides keepOverride)).1 =
      rows.count (fun following => !keepFollowing following)
        fun override => !keepOverride override := by
  rw [count, KeySet.toList, Table.countP_keys, Table.countP_values, removed]
  simp only [keepOverrides, keepFollowings, Table.size_sub_size_filter]

theorem fst_eraseUser :
    (rows.eraseUser user).1 = rows.count (·.userId = user) (·.userId = user) := by
  rw [eraseUser, removed_keep]
  simp

theorem fst_clearOverrides :
    (rows.clearOverrides user forum).1 =
      rows.count (fun _ => false) fun override => override.userId = user && override.forumId = forum := by
  have hnone : rows.followings.toList.countP (fun _ => false) = 0 := by simp
  rw [count, hnone, Table.countP_values, clearOverrides, removed]
  simp [keepOverrides, Table.size_sub_size_filter]

end Rows

end DiscussionBoard.Subscription
