import DiscussionBoard.Proofs.Subscription.Memo

/-!
# Changes clear what they touch

After its last write a change clears every slot that it touched. Only two kinds of calls make a
request that can fail between a write and its clearing.
-/

namespace DiscussionBoard.Subscription

variable {owner : Id → Id} {enabled : Bool} {tolerated : Slot → Prop} {memo : Memo}

/-- A change may leave less to clear than it found. -/
def Memo.Tidies (memo after : Memo) : Prop :=
  ∀ slot, after.dirty slot → memo.dirty slot

theorem Memo.Extends.tidies {after : Memo} (hafter : memo.Extends after) : memo.Tidies after := by
  intro slot h
  rwa [hafter.dirty] at h

theorem obeys_askRows (htolerated : ∀ slot, memo.dirty slot → tolerated slot)
    (request : RowRequest) (hrespects : request.Respects owner) :
    (askRows request).Obeys (rules owner enabled tolerated)
      (fun after _ => ∀ slot, after.dirty slot → memo.dirty slot ∨ request.Touches owner slot)
      memo := by
  refine ⟨⟨hrespects, htolerated⟩, fun answer _ slot h => ?_⟩
  cases request
  case followersOf | overridesOf => exact .inl h
  all_goals exact h

theorem obeys_invalidate (scope : Scope) :
    (invalidate scope).Obeys (rules owner enabled tolerated)
      (fun after _ => ∀ slot, after.dirty slot → memo.dirty slot ∧ scope.covers slot = false)
      memo :=
  ⟨trivial, fun _ _ _ h => h⟩

/-- Clearing tidies up what a change added to the slots to be cleared. -/
theorem obeys_invalidate_of_covers {before : Memo} {scope : Scope}
    (hbefore : ∀ slot, before.dirty slot → memo.dirty slot ∨ scope.covers slot = true) :
    (invalidate scope).Obeys (rules owner enabled tolerated)
      (fun after _ => memo.Tidies after) before := by
  apply (obeys_invalidate scope).mono
  intro after _ hafter slot h
  obtain ⟨hdirty, hcovers⟩ := hafter slot h
  exact (hbefore slot hdirty).resolve_right (by simp [hcovers])

theorem obeys_clearOverrides (htolerated : ∀ slot, memo.dirty slot → tolerated slot)
    (user forum : Id) :
    (clearOverrides user forum).Obeys (rules owner enabled tolerated)
      (fun after _ => memo.Tidies after) memo := by
  apply (obeys_askRows htolerated (.clearOverrides user forum) trivial).bind
  intro before _ hbefore
  apply obeys_invalidate_of_covers
  intro slot h
  refine (hbefore slot h).imp_right fun htouched => ?_
  simp [touches_clearOverrides.mp htouched]

/-- The end of a change to a following, whose forum is still to be cleared. -/
theorem obeys_finishChange {before : Memo} {forum : Id}
    (hbefore : ∀ slot, before.dirty slot → memo.dirty slot ∨ slot = .followers forum)
    (htolerated : ∀ slot, memo.dirty slot → tolerated slot) (user : Id) (userRequest : Bool)
    (hforum : userRequest = true → tolerated (.followers forum)) (changed : Bool) :
    (do
      if userRequest then clearOverrides user forum
      invalidate (.forum forum)
      pure changed : Program signature Bool).Obeys (rules owner enabled tolerated)
      (fun after _ => memo.Tidies after) before := by
  have hinvalidate : ∀ middle : Memo, before.Tidies middle →
      (do
        invalidate (.forum forum)
        pure changed : Program signature Bool).Obeys (rules owner enabled tolerated)
        (fun after _ => memo.Tidies after) middle := by
    intro middle hmiddle
    have hcleared : ∀ slot, middle.dirty slot →
        memo.dirty slot ∨ (Scope.forum forum).covers slot = true := by
      intro slot h
      refine (hbefore slot (hmiddle slot h)).imp_right ?_
      rintro rfl
      exact covers_forum_followers
    exact (obeys_invalidate_of_covers hcleared).bind fun _ _ hafter => hafter
  cases userRequest with
  | false => exact hinvalidate before fun _ h => h
  | true =>
      have hbeforeTolerated : ∀ slot, before.dirty slot → tolerated slot := by
        intro slot h
        rcases hbefore slot h with h | rfl
        · exact htolerated slot h
        · exact hforum rfl
      apply (obeys_clearOverrides hbeforeTolerated user forum).bind
      intro middle _ hmiddle
      exact hinvalidate middle hmiddle

theorem obeys_changeForum (htolerated : ∀ slot, memo.dirty slot → tolerated slot)
    (wanted : Preference) (user forum : Id) (userRequest : Bool)
    (hforum : userRequest = true → tolerated (.followers forum)) :
    (changeForum wanted user forum userRequest).Obeys (rules owner enabled tolerated)
      (fun after _ => memo.Tidies after) memo := by
  cases wanted with
  | subscribed =>
      apply (obeys_askRows htolerated (.follow user forum) trivial).bind
      intro before changed hbefore
      exact obeys_finishChange (fun slot h => (hbefore slot h).imp_right touches_follow.mp)
        htolerated user userRequest hforum changed
  | unsubscribed =>
      apply (obeys_askRows htolerated (.unfollow user forum) trivial).bind
      intro before changed hbefore
      exact obeys_finishChange (fun slot h => (hbefore slot h).imp_right touches_unfollow.mp)
        htolerated user userRequest hforum changed

theorem obeys_settleDiscussion {before : Memo} (hbefore : before.dirty = memo.dirty)
    (htolerated : ∀ slot, memo.dirty slot → tolerated slot) (now : Instant) (wanted : Preference)
    (user : Id) {forum discussion : Id} (howner : owner discussion = forum) (inherited : Bool)
    (existing : Option Preference) :
    (settleDiscussion now wanted user forum discussion inherited existing).Obeys
      (rules owner enabled tolerated)
      (fun after _ => ∀ slot, after.dirty slot → memo.dirty slot ∨ slot = .choices user forum)
      before := by
  have hnothing : ∀ slot, before.dirty slot → memo.dirty slot ∨ slot = .choices user forum := by
    intro slot h
    rw [hbefore] at h
    exact .inl h
  have hbeforeTolerated : ∀ slot, before.dirty slot → tolerated slot := by
    rw [hbefore]
    exact htolerated
  unfold settleDiscussion
  split
  · split
    · apply (obeys_askRows hbeforeTolerated (.dropOverride user discussion) trivial).mono
      intro after _ hafter slot h
      rw [← hbefore, ← howner]
      exact (hafter slot h).imp_right touches_dropOverride.mp
    · exact hnothing
  · split
    · exact hnothing
    · refine (obeys_askRows hbeforeTolerated
        (.putOverride ⟨user, forum, discussion, wanted, now⟩) howner.symm).mono
        fun after _ hafter slot h => ?_
      rw [← hbefore]
      exact (hafter slot h).imp_right touches_putOverride.mp

theorem obeys_changeDiscussion (htolerated : ∀ slot, memo.dirty slot → tolerated slot)
    (now : Instant) (wanted : Preference) (user : Id) (forum : Forum) {discussion : Id}
    (howner : owner discussion = forum.id) :
    (changeDiscussion now wanted user forum discussion).Obeys (rules owner enabled tolerated)
      (fun after _ => memo.Tidies after) memo := by
  rw [changeDiscussion]
  apply (obeys_forumLevel htolerated user forum).bind
  intro first inherited hfirst
  apply (obeys_storedPreference (hfirst.1.dirty_tolerated htolerated) user discussion).bind
  intro second existing hsecond
  apply (obeys_settleDiscussion (hfirst.1.trans hsecond).dirty htolerated now wanted user howner
    inherited existing).bind
  intro third changed hthird
  have hcleared : ∀ slot, third.dirty slot →
      memo.dirty slot ∨ (Scope.userForum user forum.id).covers slot = true := by
    intro slot h
    refine (hthird slot h).imp_right ?_
    rintro rfl
    exact covers_userForum_choices
  exact (obeys_invalidate_of_covers hcleared).bind fun _ _ hafter => hafter

theorem obeys_enrolled (htolerated : ∀ slot, memo.dirty slot → tolerated slot) (user : Id)
    (forums : List Forum) :
    (enrolled user forums).Obeys (rules owner enabled tolerated)
      (fun after _ => memo.Tidies after) memo := by
  induction forums generalizing memo with
  | nil => exact fun _ h => h
  | cons forum rest ih =>
      rw [enrolled]
      split
      · apply (obeys_changeForum htolerated .subscribed user forum.id false nofun).bind
        intro middle added hmiddle
        apply (ih fun slot h => htolerated slot (hmiddle slot h)).bind
        intro after others hafter slot h
        exact hmiddle slot (hafter slot h)
      · exact ih htolerated

theorem obeys_unenrolled (htolerated : ∀ slot, memo.dirty slot → tolerated slot) (user : Id)
    (forums : List Forum) (hforums : ∀ forum ∈ forums, tolerated (.followers forum.id)) :
    (unenrolled user forums).Obeys (rules owner enabled tolerated)
      (fun after _ => memo.Tidies after) memo := by
  induction forums generalizing memo with
  | nil => exact fun _ h => h
  | cons forum rest ih =>
      rw [unenrolled]
      apply (obeys_askRows htolerated (.unfollow user forum.id) trivial).bind
      intro first unfollowed hfirst
      -- The second request is made while the followers of the forum are not cleared.
      have hfirstTolerated : ∀ slot, first.dirty slot → tolerated slot := by
        intro slot h
        rcases hfirst slot h with h | h
        · exact htolerated slot h
        · rw [touches_unfollow.mp h]
          exact hforums forum List.mem_cons_self
      apply (obeys_askRows hfirstTolerated (.clearOverrides user forum.id) trivial).bind
      intro second cleared hsecond
      have hcleared : ∀ slot, second.dirty slot →
          memo.dirty slot ∨ (Scope.forum forum.id).covers slot = true := by
        intro slot h
        rcases hsecond slot h with h | h
        · refine (hfirst slot h).imp_right fun h => ?_
          simp [touches_unfollow.mp h]
        · simp [touches_clearOverrides.mp h]
      apply (obeys_invalidate_of_covers hcleared).bind
      intro third _ hthird
      have hrest : ∀ forum ∈ rest, tolerated (.followers forum.id) := by
        intro forum h
        exact hforums forum (List.mem_cons_of_mem _ h)
      apply (ih (fun slot h => htolerated slot (hthird slot h)) hrest).bind
      intro after others hafter slot h
      exact hthird slot (hafter slot h)

theorem obeys_eraseUser (htolerated : ∀ slot, memo.dirty slot → tolerated slot) (user : Id) :
    (eraseUser user).Obeys (rules owner enabled tolerated)
      (fun after _ => memo.Tidies after) memo := by
  apply (obeys_askRows htolerated (.eraseUser user) trivial).bind
  intro before removed hbefore
  have hcleared : ∀ slot, before.dirty slot →
      memo.dirty slot ∨ (Scope.user user).covers slot = true := by
    intro slot h
    exact (hbefore slot h).imp_right touches_eraseUser.mp
  exact (obeys_invalidate_of_covers hcleared).bind fun _ _ hafter => hafter

theorem obeys_eraseForum (htolerated : ∀ slot, memo.dirty slot → tolerated slot) (forum : Id) :
    (eraseForum forum).Obeys (rules owner enabled tolerated)
      (fun after _ => memo.Tidies after) memo := by
  apply (obeys_askRows htolerated (.eraseForum forum) trivial).bind
  intro before removed hbefore
  have hcleared : ∀ slot, before.dirty slot →
      memo.dirty slot ∨ (Scope.forum forum).covers slot = true := by
    intro slot h
    exact (hbefore slot h).imp_right touches_eraseForum.mp
  exact (obeys_invalidate_of_covers hcleared).bind fun _ _ hafter => hafter

theorem obeys_change (htolerated : ∀ slot, memo.dirty slot → tolerated slot) (now : Instant)
    (wanted : Preference) (user : Id) (forum : Forum) (discussion : Option Id) (userRequest : Bool)
    (hforum : discussion = none → userRequest = true → tolerated (.followers forum.id))
    (howner : ∀ found, discussion = some found → owner found = forum.id) :
    (change now wanted user forum discussion userRequest).Obeys (rules owner enabled tolerated)
      (fun after _ => memo.Tidies after) memo := by
  cases discussion with
  | none => exact obeys_changeForum htolerated wanted user forum.id userRequest (hforum rfl)
  | some discussion =>
      exact obeys_changeDiscussion htolerated now wanted user forum (howner discussion rfl)

/-! ### Calls -/

/-- What holds of a call when it ends: it cleared what it changed, and a look-up of one slot replies
with a value that it came to know for the slot. -/
structure Call.Ends (call : Call) (enabled : Bool) (memo after : Memo) (reply : Reply) : Prop where
  tidies : memo.Tidies after
  knows : enabled = true → ∀ {slot tell}, call.Reads slot tell →
    ∃ value, ⟨slot, value⟩ ∈ after.known ∧ reply = tell value

theorem obeys_program (now : Instant) {call : Call} (hrespects : call.Respects owner)
    (htolerated : ∀ slot, memo.dirty slot → tolerated slot)
    (hrisks : ∀ slot, call.Risks slot → tolerated slot) :
    (call.program now).Obeys (rules owner enabled tolerated) (call.Ends enabled memo) memo := by
  cases call with
  | isSubscribed user forum discussion =>
      refine ((obeys_isSubscribed htolerated user forum discussion).mono
        fun after answer hafter => ?_).map _
      refine ⟨hafter.1.tidies, fun henabled slot tell hreads => ?_⟩
      cases hreads with
      | isSubscribed _ _ hmode =>
          obtain ⟨users, hknown, rfl⟩ := hafter.2 rfl hmode henabled
          exact ⟨users, hknown, rfl⟩
  | subscribers forum =>
      refine ((obeys_subscribers htolerated forum).mono fun after answer hafter => ?_).map _
      refine ⟨hafter.1.tidies, fun _ slot tell hreads => ?_⟩
      cases hreads with
      | subscribers _ hmode =>
          obtain ⟨users, hknown, rfl⟩ := hafter.2 hmode
          exact ⟨users, hknown, rfl⟩
  | overridesOf user forum =>
      refine ((obeys_overridesOf htolerated user forum).mono fun after choices hafter => ?_).map _
      refine ⟨hafter.1.tidies, fun _ slot tell hreads => ?_⟩
      cases hreads with
      | overridesOf => exact ⟨choices, hafter.2, rfl⟩
  | discussionSubscribers forum discussion =>
      exact ((obeys_discussionSubscribers htolerated forum discussion).mono
        fun _ _ hafter => ⟨hafter.tidies, nofun⟩).map _
  | subscribe user forum discussion userRequest =>
      refine ((obeys_change htolerated now .subscribed user forum discussion userRequest ?_ ?_).mono
        fun _ _ hafter => ⟨hafter, nofun⟩).map _
      · rintro rfl rfl
        exact hrisks _ rfl
      · rintro discussion rfl
        exact hrespects
  | unsubscribe user forum discussion userRequest =>
      refine ((obeys_change htolerated now .unsubscribed user forum discussion userRequest ?_ ?_).mono
        fun _ _ hafter => ⟨hafter, nofun⟩).map _
      · rintro rfl rfl
        exact hrisks _ rfl
      · rintro discussion rfl
        exact hrespects
  | enrolled user forums =>
      exact ((obeys_enrolled htolerated user forums).mono fun _ _ hafter => ⟨hafter, nofun⟩).map _
  | unenrolled user forums =>
      refine ((obeys_unenrolled htolerated user forums fun forum hforum => ?_).mono
        fun _ _ hafter => ⟨hafter, nofun⟩).map _
      exact hrisks _ ⟨forum, hforum, rfl⟩
  | eraseUser user =>
      exact ((obeys_eraseUser htolerated user).mono fun _ _ hafter => ⟨hafter, nofun⟩).map _
  | eraseForum forum =>
      exact ((obeys_eraseForum htolerated forum).mono fun _ _ hafter => ⟨hafter, nofun⟩).map _
  | resetCache => exact ⟨trivial, fun _ _ => ⟨fun _ h => h.elim, nofun⟩⟩

end DiscussionBoard.Subscription
