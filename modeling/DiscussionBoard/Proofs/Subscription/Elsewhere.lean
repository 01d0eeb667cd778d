import DiscussionBoard.Proofs.Subscription.Reachable

/-!
# Rows recorded under other forums

A change of a subscription works on the rows of its own forum. One row of another forum can be in
its way: overrides are stored under the user and the discussion, so a change for a discussion meets
the user's choice for it under whatever forum that was recorded, and takes it away if it is the
opposite choice. This holds on every desk, also where the cache is wrong.
-/

namespace DiscussionBoard.Subscription

variable {α : Type} {desk : Desk}

/-! ### Programs that change no rows -/

def Request.LeavesRows : Request → Prop
  | .rows (.follows _ _) | .rows (.followersOf _) | .rows (.overrideOf _ _)
  | .rows (.overridesOf _ _) | .rows (.overridesFor _) => True
  | .rows _ => False
  | .register _ | .cache _ => True

theorem perform_of_leavesRows {request : Request} (hrequest : request.LeavesRows) (desk : Desk) :
    ∃ cache, (desk.perform request).2 = { desk with cache } := by
  cases request with
  | rows request =>
      cases request
      case follows | followersOf | overrideOf | overridesOf | overridesFor =>
        exact ⟨desk.cache, rfl⟩
      all_goals exact hrequest.elim
  | register request => exact ⟨desk.cache, rfl⟩
  | cache request => exact ⟨_, rfl⟩

/-- Whatever is in the cache, such a program gives a value and leaves all but the cache. -/
theorem run_of_leavesRows {program : Program signature α}
    (hprogram : program.AsksOnly Request.LeavesRows) (desk : Desk) :
    ∃ value cache, desk.run program = (.ok value, { desk with cache }) := by
  obtain ⟨value, last, hrun, cache, rfl⟩ := hprogram.run_keeps
    (fun last => ∃ cache, last = { desk with cache })
    (by
      rintro request _ hrequest ⟨cache, rfl⟩
      exact perform_of_leavesRows hrequest _)
    ⟨desk.cache, rfl⟩
  exact ⟨value, cache, hrun⟩

theorem asksOnly_followersOf (forum : Id) : (followersOf forum).AsksOnly Request.LeavesRows := by
  refine ⟨trivial, fun found => ?_⟩
  cases found with
  | some hit => trivial
  | none => exact ⟨trivial, fun ticket => ⟨trivial, fun stored => ⟨trivial, fun _ => trivial⟩⟩⟩

theorem asksOnly_forumLevel (user : Id) (forum : Forum) :
    (forumLevel user forum).AsksOnly Request.LeavesRows := by
  unfold forumLevel
  cases forum.subscriptionMode with
  | forced => exact ⟨trivial, fun _ => trivial⟩
  | disallowed => trivial
  | choose | initial =>
      refine ⟨trivial, fun enabled => ?_⟩
      cases enabled with
      | true => exact (asksOnly_followersOf forum.id).bind fun _ => trivial
      | false => exact ⟨trivial, fun _ => trivial⟩

/-! ### Changes -/

/-- A choice that a change of the subscription to a discussion takes away: the user's own for that
discussion, and the opposite one. -/
def Override.Opposes (override : Override) (wanted : Preference) (user : Id)
    (discussion : Option Id) : Prop :=
  override.userId = user ∧ discussion = some override.discussionId ∧
    override.preference = wanted.opposite

/-- What a change in a forum does to the rows of other forums. -/
structure Rows.KeepsElsewhere (rows after : Rows) (wanted : Preference) (user forum : Id)
    (discussion : Option Id) : Prop where
  follows : ∀ other place, place ≠ forum → after.follows other place = rows.follows other place
  overrides : ∀ override, override.forumId ≠ forum →
    (override ∈ after.overrides.values ↔
      override ∈ rows.overrides.values ∧ ¬override.Opposes wanted user discussion)

namespace Rows

variable {rows : Rows} {wanted : Preference} {user forum discussion : Id}

theorem keepsElsewhere_changeForum (rows : Rows) (wanted : Preference) (user forum : Id)
    (userRequest : Bool) :
    rows.KeepsElsewhere (rows.changeForum wanted user forum userRequest).2 wanted user forum
      none where
  follows other place hplace := by
    have hfollows : (rows.changeFollowing wanted user forum).2.follows other place =
        rows.follows other place := by
      rw [Bool.eq_iff_iff, follows_changeFollowing, if_neg fun h => hplace h.2]
    cases userRequest <;> exact hfollows
  overrides override hforum := by
    rw [mem_values_iff, mem_values_iff, overrideOf_changeForum_iff]
    refine and_congr_right fun _ => iff_of_true (fun h => hforum h.2.2) ?_
    exact fun h => nomatch h.2.1

theorem preference_ne_of_opposite
    (hstored : rows.preference user discussion = some wanted.opposite) :
    rows.preference user discussion ≠ some wanted := by
  rw [hstored]
  exact fun h => Preference.ne_iff_eq_opposite.mpr rfl (Option.some.inj h)

/-- Where the user did not make the opposite choice there is nothing to take away. -/
theorem keepsElsewhere_refl (hstored : rows.preference user discussion ≠ some wanted.opposite) :
    rows.KeepsElsewhere rows wanted user forum (some discussion) where
  follows _ _ _ := rfl
  overrides override _ := by
    refine (and_iff_left_of_imp ?_).symm
    rintro hmem ⟨rfl, hdiscussion, hopposite⟩
    cases hdiscussion
    rw [mem_values_iff] at hmem
    rw [preference, hmem, Option.map_some, hopposite] at hstored
    exact hstored rfl

/-- What was stored for the user and the discussion is gone, or stands under the forum now. -/
theorem keepsElsewhere_of_replaced {after : Rows} (hfollowings : after.followings = rows.followings)
    (hstored : rows.preference user discussion ≠ some wanted)
    (hgone : ∀ override, override.forumId ≠ forum →
      after.overrideOf user discussion ≠ some override)
    (hother : ∀ {otherUser other}, (otherUser, other) ≠ (user, discussion) →
      after.overrideOf otherUser other = rows.overrideOf otherUser other) :
    rows.KeepsElsewhere after wanted user forum (some discussion) where
  follows other place _ := by rw [Rows.follows, hfollowings, Rows.follows]
  overrides override hforum := by
    rw [mem_values_iff, mem_values_iff]
    by_cases hkey : (override.userId, override.discussionId) = (user, discussion)
    · obtain ⟨rfl, rfl⟩ := Prod.mk.inj hkey
      refine iff_of_false (hgone override hforum) ?_
      rintro ⟨hget, hkept⟩
      rw [preference, hget, Option.map_some] at hstored
      have hdiffers : override.preference ≠ wanted := fun h => hstored (congrArg some h)
      exact hkept ⟨rfl, rfl, Preference.ne_iff_eq_opposite.mp hdiffers⟩
    · rw [hother hkey]
      refine (and_iff_left ?_).symm
      rintro ⟨rfl, hdiscussion, -⟩
      cases hdiscussion
      exact hkey rfl

theorem keepsElsewhere_dropOverride
    (hstored : rows.preference user discussion = some wanted.opposite) :
    rows.KeepsElsewhere (rows.dropOverride user discussion).2 wanted user forum
      (some discussion) := by
  apply keepsElsewhere_of_replaced
  · rfl
  · exact preference_ne_of_opposite hstored
  · intro override _ hget
    exact (overrideOf_dropOverride_iff.mp hget).2 rfl
  · intro otherUser other hkey
    apply Option.ext
    intro override
    exact overrideOf_dropOverride_iff.trans (and_iff_left hkey)

theorem keepsElsewhere_putOverride (now : Instant)
    (hstored : rows.preference user discussion ≠ some wanted) :
    rows.KeepsElsewhere (rows.putOverride ⟨user, forum, discussion, wanted, now⟩).2 wanted user
      forum (some discussion) := by
  have hnew : (rows.putOverride ⟨user, forum, discussion, wanted, now⟩).2 =
      rows.insertOverride ⟨user, forum, discussion, wanted, now⟩ := by
    rw [putOverride_of_preference_ne]
    exact hstored
  rw [hnew]
  apply keepsElsewhere_of_replaced
  · rfl
  · exact hstored
  · intro override hforum hget
    have hput : (rows.insertOverride ⟨user, forum, discussion, wanted, now⟩).overrideOf user
        discussion = some ⟨user, forum, discussion, wanted, now⟩ :=
      overrideOf_insertOverride_self _
    obtain rfl := Option.some.inj (hget.symm.trans hput)
    exact hforum rfl
  · exact fun hkey => overrideOf_insertOverride_of_ne hkey

theorem keepsElsewhere_settle (rows : Rows) (now : Instant) (wanted : Preference)
    (user forum discussion : Id) (inherited : Bool) :
    rows.KeepsElsewhere
      (rows.settle now wanted user forum discussion inherited (rows.preference user discussion)).2
      wanted user forum (some discussion) := by
  unfold settle
  -- The opposite choice goes on either side of the forum level, by a removal or a replacement.
  by_cases hopposite : rows.preference user discussion = some wanted.opposite
  · have hwanted := preference_ne_of_opposite hopposite
    rw [if_pos hopposite, if_neg hwanted]
    split
    · exact keepsElsewhere_dropOverride hopposite
    · exact keepsElsewhere_putOverride now hwanted
  · have hkept : rows.KeepsElsewhere rows wanted user forum (some discussion) :=
      keepsElsewhere_refl hopposite
    rw [if_neg hopposite]
    split
    · exact hkept
    · split
      · exact hkept
      · rename_i hwanted
        exact keepsElsewhere_putOverride now hwanted

end Rows

/-- Whatever the forum level was found to be, the choice is read from storage itself. -/
theorem exists_settles_changeDiscussion (desk : Desk) (now : Instant) (wanted : Preference)
    (user : Id) (forum : Forum) (discussion : Id) :
    ∃ inherited, desk.Settles (changeDiscussion now wanted user forum discussion)
      (desk.rows.settle now wanted user forum.id discussion inherited
        (desk.rows.preference user discussion)) := by
  obtain ⟨inherited, cache, hlevel⟩ := run_of_leavesRows (asksOnly_forumLevel user forum) desk
  have hstored : Desk.run { desk with cache } (storedPreference user discussion) =
      (.ok (desk.rows.preference user discussion), { desk with cache }) := rfl
  have hsettles : Desk.Settles { desk with cache } (do
      let changed ← settleDiscussion now wanted user forum.id discussion inherited
        (desk.rows.preference user discussion)
      invalidate (.userForum user forum.id)
      pure changed)
      (desk.rows.settle now wanted user forum.id discussion inherited
        (desk.rows.preference user discussion)) :=
    (settles_settleDiscussion _ now wanted user forum.id discussion _ _).bind fun _ => ⟨_, rfl⟩
  obtain ⟨last, hrun⟩ := hsettles
  refine ⟨inherited, last, ?_⟩
  rw [changeDiscussion, run_bind_of_ok hlevel, run_bind_of_ok hstored]
  exact hrun

/-- Subscribing and unsubscribing, whatever is stored and cached, leave the rows of all other forums
as they are, but for the user's own opposite choice for the same discussion. -/
theorem change_keepsElsewhere (desk : Desk) (now : Instant) (wanted : Preference) (user : Id)
    (forum : Forum) (discussion : Option Id) (userRequest : Bool) :
    ∃ changed after, desk.run (change now wanted user forum discussion userRequest) =
        (.ok changed, after) ∧
      desk.rows.KeepsElsewhere after.rows wanted user forum.id discussion := by
  cases discussion with
  | none =>
      obtain ⟨cache, hrun⟩ := settles_changeForum desk wanted user forum.id userRequest
      exact ⟨_, _, hrun, Rows.keepsElsewhere_changeForum desk.rows wanted user forum.id userRequest⟩
  | some discussion =>
      obtain ⟨inherited, cache, hrun⟩ :=
        exists_settles_changeDiscussion desk now wanted user forum discussion
      exact ⟨_, _, hrun, Rows.keepsElsewhere_settle desk.rows now wanted user forum.id discussion
        inherited⟩

/-- A user chose a discussion under one forum, and an unsubscription under another forum takes the
choice away. -/
theorem unsubscribe_drops_elsewhere :
    let home : Forum := { id := .ofNat 4, courseId := .ofNat 2 }
    let forum : Forum := { id := .ofNat 1, courseId := .ofNat 2 }
    let chosen := (Desk.run ⟨.empty, {}, { enabled := true }⟩
      ((Call.subscribe (.ofNat 7) home (some (.ofNat 5)) true).program default)).2
    let override : Override := ⟨.ofNat 7, home.id, .ofNat 5, .subscribed, default⟩
    let after := (chosen.run
      ((Call.unsubscribe (.ofNat 7) forum (some (.ofNat 5)) true).program default)).2
    chosen.Visited true ∧ override.forumId ≠ forum.id ∧ override ∈ chosen.rows.overrides.values ∧
      override ∉ after.rows.overrides.values := by
  intro home forum chosen override after
  exact ⟨.call (.start {}) default _, by decide +kernel⟩

end DiscussionBoard.Subscription
