import DiscussionBoard.Proofs.Subscription.Outcome

/-!
# Times do not matter

Overrides record when they were written, and nothing depends on it: the outcome of a call on rows
without their times is its outcome without the times.
-/

namespace DiscussionBoard.Subscription

def Override.undated (override : Override) : Override :=
  { override with updatedAt := default }

namespace Rows

def undated (rows : Rows) : Rows where
  followings := rows.followings
  overrides := rows.overrides.mapValues Override.undated
  keyed {key override} hget := by
    rw [Table.get?_mapValues, Option.map_eq_some_iff] at hget
    obtain ⟨found, hfound, rfl⟩ := hget
    have hkey : found.key = key := rows.keyed hfound
    exact hkey

theorem eq_of_tables {a b : Rows} (hfollowings : a.followings = b.followings)
    (hoverrides : a.overrides = b.overrides) : a = b := by
  cases a
  cases b
  cases hfollowings
  cases hoverrides
  rfl

/-! ### Look-ups -/

variable (rows : Rows) (register : Register) (user : Id) (forum : Forum) (discussion : Id)

theorem overrideOf_undated :
    rows.undated.overrideOf user discussion =
      (rows.overrideOf user discussion).map Override.undated :=
  Table.get?_mapValues _ _ _

theorem preference_undated :
    rows.undated.preference user discussion = rows.preference user discussion := by
  rw [preference, overrideOf_undated, Option.map_map]
  rfl

theorem overridesOf_undated (forum : Id) :
    rows.undated.overridesOf user forum = rows.overridesOf user forum := by
  unfold overridesOf undated
  rw [Table.values_mapValues, List.filter_map, List.map_map]
  rfl

theorem overridesFor_undated :
    rows.undated.overridesFor discussion = rows.overridesFor discussion := by
  unfold overridesFor undated
  rw [Table.values_mapValues, List.filter_map, List.map_map]
  rfl

theorem at_undated (slot : Slot) : rows.undated.at slot = rows.at slot := by
  cases slot with
  | followers forum => rfl
  | choices user forum => rw [Rows.at, overridesOf_undated, Rows.at]

theorem forumLevel_undated :
    rows.undated.forumLevel register user forum = rows.forumLevel register user forum := rfl

theorem isSubscribed_undated (discussion : Option Id) :
    rows.undated.isSubscribed register user forum discussion =
      rows.isSubscribed register user forum discussion := by
  cases discussion with
  | none => rfl
  | some discussion => rw [isSubscribed, preference_undated, forumLevel_undated, isSubscribed]

theorem subscribers_undated :
    rows.undated.subscribers register forum = rows.subscribers register forum := rfl

theorem discussionSubscribers_undated :
    rows.undated.discussionSubscribers register forum discussion =
      rows.discussionSubscribers register forum discussion := by
  rw [discussionSubscribers, overridesFor_undated, at_undated, subscribers_undated,
    discussionSubscribers]

/-! ### Changes -/

theorem keepOverrides_undated {keep : Override → Bool}
    (hkeep : ∀ override, keep override.undated = keep override) :
    (rows.keepOverrides keep).undated = rows.undated.keepOverrides keep := by
  refine eq_of_tables rfl ?_
  have hfilter := Table.mapValues_filter rows.overrides Override.undated fun _ => keep
  simp only [hkeep] at hfilter
  exact hfilter

theorem insertOverride_undated (override : Override) :
    (rows.insertOverride override).undated = rows.undated.insertOverride override.undated :=
  eq_of_tables rfl (Table.mapValues_insert _ _ _ _)

theorem removed_undated (left : Rows) :
    rows.undated.removed left.undated = ((rows.removed left).1, (rows.removed left).2.undated) := by
  simp [removed, undated, Table.size_mapValues]

theorem putOverride_undated (override : Override) :
    rows.undated.putOverride override.undated =
      ((rows.putOverride override).1, (rows.putOverride override).2.undated) := by
  have hstored : ((rows.undated.overrideOf override.undated.userId
        override.undated.discussionId).any fun stored =>
          stored.preference = override.undated.preference) =
      (rows.overrideOf override.userId override.discussionId).any fun stored =>
        stored.preference = override.preference := by
    rw [overrideOf_undated, Option.any_map]
    rfl
  rw [putOverride, putOverride, hstored]
  split
  · rfl
  · rw [insertOverride_undated]

theorem dropOverride_undated :
    rows.undated.dropOverride user discussion =
      ((rows.dropOverride user discussion).1, (rows.dropOverride user discussion).2.undated) := by
  rw [dropOverride, dropOverride, overrideOf_undated, Option.isSome_map,
    keepOverrides_undated rows fun _ => rfl]

theorem clearOverrides_undated (forum : Id) :
    rows.undated.clearOverrides user forum =
      ((rows.clearOverrides user forum).1, (rows.clearOverrides user forum).2.undated) := by
  rw [clearOverrides, ← keepOverrides_undated rows fun _ => rfl, removed_undated, clearOverrides]

theorem eraseUser_undated :
    rows.undated.eraseUser user = ((rows.eraseUser user).1, (rows.eraseUser user).2.undated) := by
  rw [eraseUser, eraseUser, ← removed_undated, keepOverrides_undated _ fun _ => rfl]
  rfl

theorem eraseForum_undated (forum : Id) :
    rows.undated.eraseForum forum =
      ((rows.eraseForum forum).1, (rows.eraseForum forum).2.undated) := by
  rw [eraseForum, eraseForum, ← removed_undated, keepOverrides_undated _ fun _ => rfl]
  rfl

theorem changeFollowing_undated (wanted : Preference) (forum : Id) :
    rows.undated.changeFollowing wanted user forum =
      ((rows.changeFollowing wanted user forum).1,
        (rows.changeFollowing wanted user forum).2.undated) := by
  cases wanted <;> rfl

theorem changeForum_undated (wanted : Preference) (forum : Id) (userRequest : Bool) :
    rows.undated.changeForum wanted user forum userRequest =
      ((rows.changeForum wanted user forum userRequest).1,
        (rows.changeForum wanted user forum userRequest).2.undated) := by
  rw [changeForum, changeForum, changeFollowing_undated]
  cases userRequest with
  | false => rfl
  | true => simp [clearOverrides_undated]

theorem changeDiscussion_undated (now : Instant) (wanted : Preference) :
    rows.undated.changeDiscussion register default wanted user forum discussion =
      ((rows.changeDiscussion register now wanted user forum discussion).1,
        (rows.changeDiscussion register now wanted user forum discussion).2.undated) := by
  unfold changeDiscussion settle
  rw [forumLevel_undated, preference_undated]
  split
  · split
    · exact dropOverride_undated rows user discussion
    · rfl
  · split
    · rfl
    · exact putOverride_undated rows ⟨user, forum.id, discussion, wanted, now⟩

theorem change_undated (now : Instant) (wanted : Preference) (discussion : Option Id)
    (userRequest : Bool) :
    rows.undated.change register default wanted user forum discussion userRequest =
      ((rows.change register now wanted user forum discussion userRequest).1,
        (rows.change register now wanted user forum discussion userRequest).2.undated) := by
  cases discussion with
  | none => exact changeForum_undated rows user wanted forum.id userRequest
  | some discussion => exact changeDiscussion_undated rows register user forum discussion now wanted

theorem enrolled_undated (forums : List Forum) :
    rows.undated.enrolled user forums =
      ((rows.enrolled user forums).1, (rows.enrolled user forums).2.undated) := by
  induction forums generalizing rows with
  | nil => rfl
  | cons forum rest ih =>
      unfold enrolled
      rw [changeForum_undated]
      split
      · dsimp only
        rw [ih]
      · exact ih rows

theorem unenrolled_undated (forums : List Forum) :
    rows.undated.unenrolled user forums =
      ((rows.unenrolled user forums).1, (rows.unenrolled user forums).2.undated) := by
  induction forums generalizing rows with
  | nil => rfl
  | cons forum rest ih =>
      unfold unenrolled
      have hunfollow : rows.undated.unfollow user forum.id =
        ((rows.unfollow user forum.id).1, (rows.unfollow user forum.id).2.undated) := rfl
      rw [hunfollow]
      dsimp only
      rw [clearOverrides_undated]
      dsimp only
      rw [ih]

end Rows

/-- The outcome of a call on undated rows. -/
theorem outcome_undated (rows : Rows) (register : Register) (now : Instant) (call : Call) :
    call.outcome default register rows.undated =
      ((call.outcome now register rows).1, (call.outcome now register rows).2.undated) := by
  cases call with
  | isSubscribed user forum discussion =>
      rw [Call.outcome, Rows.isSubscribed_undated, Call.outcome]
  | subscribers forum => rfl
  | discussionSubscribers forum discussion =>
      rw [Call.outcome, Rows.discussionSubscribers_undated, Call.outcome]
  | overridesOf user forum => rw [Call.outcome, Rows.at_undated, Call.outcome]
  | subscribe user forum discussion userRequest =>
      rw [Call.outcome, Rows.change_undated _ _ _ _ now, Call.outcome]
      rfl
  | unsubscribe user forum discussion userRequest =>
      rw [Call.outcome, Rows.change_undated _ _ _ _ now, Call.outcome]
      rfl
  | enrolled user forums =>
      rw [Call.outcome, Rows.enrolled_undated, Call.outcome]
      rfl
  | unenrolled user forums =>
      rw [Call.outcome, Rows.unenrolled_undated, Call.outcome]
      rfl
  | eraseUser user =>
      rw [Call.outcome, Rows.eraseUser_undated, Call.outcome]
      rfl
  | eraseForum forum =>
      rw [Call.outcome, Rows.eraseForum_undated, Call.outcome]
      rfl
  | resetCache => rfl

end DiscussionBoard.Subscription
