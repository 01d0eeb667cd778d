import DiscussionBoard.Proofs.Subscription.Entries
import DiscussionBoard.Proofs.Subscription.Notification

/-!
# What a change for a discussion does

In a forum where users may choose, a change for one discussion looks at the user's following and at
the user's override, and of the six cases of the two it acts in three. In all of them it reports
whether the answer for the user was another one before, and leaves the wanted answer and all rows
but that override.
-/

namespace DiscussionBoard.Subscription

variable {α : Type} {owner : Id → Id} {enabled : Bool} {before after desk : Desk}

/-- A look-up on a desk gives a value. -/
def Desk.Finds (desk : Desk) (lookup : Program signature α) (value : α) : Prop :=
  (desk.run lookup).1 = .ok value

/-- A look-up gives the same value on two desks. -/
def Desk.FindsLike (before after : Desk) (lookup : Program signature α) : Prop :=
  ∃ value, before.Finds lookup value ∧ after.Finds lookup value

theorem owner_of_some {discussion forum : Id} (howner : owner discussion = forum) :
    ∀ found, some discussion = some found → owner found = forum := by
  rintro _ ⟨⟩
  exact howner

theorem Desk.Looks.finds {lookup : Program signature α} {value : α}
    (hlooks : desk.Looks lookup value) : desk.Finds lookup value := by
  obtain ⟨_, hrun, -⟩ := hlooks
  rw [Desk.Finds, hrun]

theorem Desk.Orderly.finds_isSubscribed (horderly : desk.Orderly owner) (user : Id) (forum : Forum)
    (place : Option Id) (howner : ∀ found, place = some found → owner found = forum.id) :
    desk.Finds (isSubscribed user forum place)
      (desk.rows.isSubscribed desk.register user forum place) :=
  (looks_isSubscribed horderly.coherent horderly.owned user forum howner).finds

theorem Desk.Orderly.finds_program (horderly : desk.Orderly owner) (now : Instant) {call : Call}
    (hrespects : call.Respects owner) :
    desk.Finds (call.program now) (call.outcome now desk.register desk.rows).1 := by
  obtain ⟨_, hrun, -⟩ := run_program horderly.coherent horderly.owned now hrespects
  rw [Desk.Finds, hrun]

/-- A change leaves a desk in order, with the rows that it makes of the rows. -/
theorem Desk.Orderly.run_change (horderly : desk.Orderly owner) (now : Instant)
    (wanted : Preference) (user : Id) (forum : Forum) (place : Option Id)
    (howner : ∀ found, place = some found → owner found = forum.id) (userRequest : Bool) :
    ∃ cache, desk.run (change now wanted user forum place userRequest) =
        (.ok (desk.rows.change desk.register now wanted user forum place userRequest).1,
          ⟨(desk.rows.change desk.register now wanted user forum place userRequest).2,
            desk.register, cache⟩) ∧
      Desk.Orderly owner
        ⟨(desk.rows.change desk.register now wanted user forum place userRequest).2,
          desk.register, cache⟩ := by
  have hsettles : desk.Settles (change now wanted user forum place userRequest)
      (desk.rows.change desk.register now wanted user forum place userRequest) :=
    settles_change (Desk.coherent_iff.mp horderly.coherent) now wanted user id place userRequest
  cases place with
  | none =>
      cases wanted with
      | subscribed =>
          exact horderly.run_settled hsettles now (.subscribe user forum none userRequest) rfl trivial
      | unsubscribed =>
          exact horderly.run_settled hsettles now (.unsubscribe user forum none userRequest) rfl trivial
  | some discussion =>
      have hrespects := howner discussion rfl
      cases wanted with
      | subscribed =>
          exact horderly.run_settled hsettles now (.subscribe user forum (some discussion) userRequest)
            rfl hrespects
      | unsubscribed =>
          exact horderly.run_settled hsettles now
            (.unsubscribe user forum (some discussion) userRequest) rfl hrespects

namespace Rows

variable {rows changed : Rows} {register : Register} {wanted : Preference}
  {user discussion other : Id} {forum place : Forum} {asked : Option Id}

theorem isSubscribed_congr
    (hfollows : changed.follows other place.id = rows.follows other place.id)
    (hoverride : ∀ found, asked = some found →
      changed.overrideOf other found = rows.overrideOf other found) :
    changed.isSubscribed register other place asked =
      rows.isSubscribed register other place asked := by
  have hlevel : changed.forumLevel register other place = rows.forumLevel register other place := by
    unfold forumLevel
    rw [hfollows]
  cases asked with
  | none => exact hlevel
  | some found =>
      have hpreference : changed.preference other found = rows.preference other found := by
        rw [preference, hoverride found rfl, preference]
      unfold isSubscribed
      dsimp only
      rw [hlevel, hpreference]

/-! ### One discussion -/

theorem preference_insertOverride_self (override : Override) :
    (rows.insertOverride override).preference override.userId override.discussionId =
      some override.preference := by
  rw [preference, overrideOf_insertOverride_self, Option.map_some]

theorem preference_dropOverride_self :
    (rows.dropOverride user discussion).2.preference user discussion = none := by
  have hgone : (rows.dropOverride user discussion).2.overrideOf user discussion = none :=
    Option.eq_none_iff_forall_ne_some.mpr fun _ hget => (overrideOf_dropOverride_iff.mp hget).2 rfl
  rw [preference, hgone]
  rfl

theorem dropOverride_of_preference {preference : Preference}
    (hstored : rows.preference user discussion = some preference) :
    (rows.dropOverride user discussion).1 = true := by
  obtain ⟨override, hget, -⟩ := Option.map_eq_some_iff.mp hstored
  rw [dropOverride, hget]
  rfl

theorem changeDiscussion_of_level
    (hlevel : rows.forumLevel register user forum = wanted.isSubscribed)
    (hstored : rows.preference user discussion ≠ some wanted.opposite) (now : Instant) :
    rows.changeDiscussion register now wanted user forum discussion = (false, rows) := by
  rw [changeDiscussion, settle, if_pos hlevel, if_neg hstored]

theorem changeDiscussion_of_stored
    (hlevel : rows.forumLevel register user forum ≠ wanted.isSubscribed)
    (hstored : rows.preference user discussion = some wanted) (now : Instant) :
    rows.changeDiscussion register now wanted user forum discussion = (false, rows) := by
  rw [changeDiscussion, settle, if_neg hlevel, if_pos hstored]

theorem changeDiscussion_of_opposite
    (hlevel : rows.forumLevel register user forum = wanted.isSubscribed)
    (hstored : rows.preference user discussion = some wanted.opposite) (now : Instant) :
    rows.changeDiscussion register now wanted user forum discussion =
      rows.dropOverride user discussion := by
  rw [changeDiscussion, settle, if_pos hlevel, if_pos hstored]

theorem changeDiscussion_of_unstored
    (hlevel : rows.forumLevel register user forum ≠ wanted.isSubscribed)
    (hstored : rows.preference user discussion ≠ some wanted) (now : Instant) :
    rows.changeDiscussion register now wanted user forum discussion =
      (true, rows.insertOverride ⟨user, forum.id, discussion, wanted, now⟩) := by
  have hput : rows.putOverride ⟨user, forum.id, discussion, wanted, now⟩ = (true, _) :=
    putOverride_of_preference_ne hstored
  rw [changeDiscussion, settle, if_neg hlevel, if_neg hstored, hput]

/-- Nothing is done where the answer is the wanted one. Else the opposite choice is dropped where the
user's following gives the wanted answer, and the wanted choice is written where it does not. -/
theorem changeDiscussion_cases (hmode : forum.subscriptionMode.isOptional = true) (rows : Rows)
    (register : Register) (now : Instant) (wanted : Preference) (user discussion : Id) :
    (rows.isSubscribed register user forum (some discussion) = wanted.isSubscribed ∧
      rows.changeDiscussion register now wanted user forum discussion = (false, rows)) ∨
    (rows.isSubscribed register user forum (some discussion) ≠ wanted.isSubscribed ∧
      ((rows.follows user forum.id = wanted.isSubscribed ∧
        rows.changeDiscussion register now wanted user forum discussion =
          (true, (rows.dropOverride user discussion).2)) ∨
      rows.changeDiscussion register now wanted user forum discussion =
        (true, rows.insertOverride ⟨user, forum.id, discussion, wanted, now⟩))) := by
  have hopposite : wanted.opposite.isSubscribed ≠ wanted.isSubscribed := by
    cases wanted <;> decide
  have hfollows : rows.forumLevel register user forum = rows.follows user forum.id :=
    rows.forumLevel_of_isOptional hmode register user
  rw [isSubscribed_of_isOptional hmode, ← hfollows]
  by_cases hlevel : rows.forumLevel register user forum = wanted.isSubscribed
  · by_cases hstored : rows.preference user discussion = some wanted.opposite
    · have hdropped := dropOverride_of_preference hstored
      rw [changeDiscussion_of_opposite hlevel hstored, hstored]
      exact .inr ⟨hopposite, .inl ⟨hlevel, Prod.ext hdropped rfl⟩⟩
    · refine .inl ⟨?_, changeDiscussion_of_level hlevel hstored now⟩
      -- No choice, or the wanted one: either way the answer is that of the following.
      cases hown : rows.preference user discussion with
      | none => exact hlevel
      | some own =>
          have hwanted : own = wanted := Decidable.byContradiction fun hne =>
            hstored (hown.trans (congrArg some (Preference.ne_iff_eq_opposite.mp hne)))
          exact congrArg Preference.isSubscribed hwanted
  · by_cases hstored : rows.preference user discussion = some wanted
    · refine .inl ⟨?_, changeDiscussion_of_stored hlevel hstored now⟩
      rw [hstored]
      rfl
    · refine .inr ⟨?_, .inr (changeDiscussion_of_unstored hlevel hstored now)⟩
      -- No choice, or the opposite one: either way the answer is not the wanted one.
      cases hown : rows.preference user discussion with
      | none => exact hlevel
      | some own =>
          have hother : own = wanted.opposite :=
            Preference.ne_iff_eq_opposite.mp fun h => hstored (hown.trans (congrArg some h))
          rw [hother]
          exact hopposite

theorem fst_changeDiscussion (hmode : forum.subscriptionMode.isOptional = true) (now : Instant) :
    (rows.changeDiscussion register now wanted user forum discussion).1 = true ↔
      rows.isSubscribed register user forum (some discussion) ≠ wanted.isSubscribed := by
  rcases changeDiscussion_cases hmode rows register now wanted user discussion with
    ⟨hsame, hidle⟩ | ⟨hdiffers, ⟨-, hdropped⟩ | hwritten⟩
  · rw [hidle]
    exact iff_of_false Bool.false_ne_true (not_not_intro hsame)
  · rw [hdropped]
    exact iff_of_true rfl hdiffers
  · rw [hwritten]
    exact iff_of_true rfl hdiffers

theorem isSubscribed_changeDiscussion (hmode : forum.subscriptionMode.isOptional = true)
    (now : Instant) :
    (rows.changeDiscussion register now wanted user forum discussion).2.isSubscribed register user
      forum (some discussion) = wanted.isSubscribed := by
  rcases changeDiscussion_cases hmode rows register now wanted user discussion with
    ⟨hsame, hidle⟩ | ⟨-, ⟨hlevel, hdropped⟩ | hwritten⟩
  · rw [hidle, hsame]
  · rw [hdropped, isSubscribed_of_isOptional hmode, preference_dropOverride_self]
    exact hlevel
  · have hstored := rows.preference_insertOverride_self ⟨user, forum.id, discussion, wanted, now⟩
    rw [hwritten, isSubscribed_of_isOptional hmode, hstored]
    rfl

theorem snd_changeDiscussion_of_false (hmode : forum.subscriptionMode.isOptional = true)
    {now : Instant}
    (hchanged : (rows.changeDiscussion register now wanted user forum discussion).1 = false) :
    (rows.changeDiscussion register now wanted user forum discussion).2 = rows := by
  rcases changeDiscussion_cases hmode rows register now wanted user discussion with
    ⟨-, hidle⟩ | ⟨-, ⟨-, hdropped⟩ | hwritten⟩
  · rw [hidle]
  · rw [hdropped] at hchanged
    cases hchanged
  · rw [hwritten] at hchanged
    cases hchanged

theorem entry_dropOverride_of_ne {key : RowKey} (hkey : key ≠ .override user discussion) :
    (rows.dropOverride user discussion).2.entry key = rows.entry key := by
  cases key with
  | following => rfl
  | override other found =>
      have hne : (other, found) ≠ (user, discussion) := by
        rintro ⟨⟩
        exact hkey rfl
      refine Option.ext fun override => ?_
      exact overrideOf_dropOverride_iff.trans (and_iff_left hne)

theorem entry_insertOverride_of_ne {override : Override} {key : RowKey}
    (hkey : key ≠ .override override.userId override.discussionId) :
    (rows.insertOverride override).entry key = rows.entry key := by
  cases key with
  | following => rfl
  | override other found =>
      apply overrideOf_insertOverride_of_ne
      rintro ⟨⟩
      exact hkey rfl

theorem entry_changeDiscussion_of_ne (hmode : forum.subscriptionMode.isOptional = true)
    (now : Instant) (key : RowKey) (hkey : key ≠ .override user discussion) :
    (rows.changeDiscussion register now wanted user forum discussion).2.entry key =
      rows.entry key := by
  rcases changeDiscussion_cases hmode rows register now wanted user discussion with
    ⟨-, hidle⟩ | ⟨-, ⟨-, hdropped⟩ | hwritten⟩
  · rw [hidle]
  · rw [hdropped]
    exact entry_dropOverride_of_ne hkey
  · rw [hwritten]
    exact entry_insertOverride_of_ne hkey

theorem isSubscribed_changeDiscussion_of_ne (hmode : forum.subscriptionMode.isOptional = true)
    (now : Instant) (hplace : (other, asked) ≠ (user, some discussion)) :
    (rows.changeDiscussion register now wanted user forum discussion).2.isSubscribed register other
      place asked = rows.isSubscribed register other place asked := by
  apply isSubscribed_congr
  · exact entry_changeDiscussion_of_ne hmode now (.following other place.id) nofun
  · rintro found rfl
    apply entry_changeDiscussion_of_ne hmode now (.override other found)
    rintro ⟨⟩
    exact hplace rfl

end Rows

/-- What becomes of a desk when a user asks for an answer about one discussion. -/
structure DiscussionChange (owner : Id → Id) (before after : Desk) (user : Id) (forum : Forum)
    (discussion : Id) (wanted changed : Bool) : Prop where
  reports : ∃ subscribed, before.Finds (isSubscribed user forum (some discussion)) subscribed ∧
    (changed = true ↔ subscribed ≠ wanted)
  answers : after.Finds (isSubscribed user forum (some discussion)) wanted
  idle : changed = false → after.rows = before.rows
  rows : ∀ key, key ≠ .override user discussion → after.rows.entry key = before.rows.entry key
  others : ∀ (other : Id) (place : Forum) (asked : Option Id),
    (∀ found, asked = some found → owner found = place.id) →
    (other, asked) ≠ (user, some discussion) → before.FindsLike after (isSubscribed other place asked)

/-- Subscribing to a discussion and unsubscribing from it, on a reachable desk and where users may
choose, come to an end, report whether the answer for the user was another one, and make it the
wanted one. They leave all rows but the user's override for the discussion, and all other answers. -/
theorem discussion_change_does_what_it_reports (hdesk : desk.Reachable owner enabled)
    (now : Instant) (wanted : Preference) (user : Id) (forum : Forum)
    (hmode : forum.subscriptionMode.isOptional = true) (discussion : Id)
    (howner : owner discussion = forum.id) (userRequest : Bool) :
    ∃ changed after,
      desk.run (change now wanted user forum (some discussion) userRequest) =
        (.ok changed, after) ∧
      DiscussionChange owner desk after user forum discussion wanted.isSubscribed changed := by
  have horderly := hdesk.orderly
  have hplace := owner_of_some howner
  obtain ⟨cache, hrun, hafter⟩ := horderly.run_change now wanted user forum _ hplace userRequest
  have hanswers := hafter.finds_isSubscribed user forum _ hplace
  rw [Rows.change, Rows.isSubscribed_changeDiscussion hmode] at hanswers
  refine ⟨_, _, hrun, ?_⟩
  exact
    { reports := ⟨_, horderly.finds_isSubscribed user forum _ hplace,
        Rows.fst_changeDiscussion hmode now⟩
      answers := hanswers
      idle := Rows.snd_changeDiscussion_of_false hmode
      rows := Rows.entry_changeDiscussion_of_ne hmode now
      others := by
        intro other place asked hasked hother
        have hlike := hafter.finds_isSubscribed other place asked hasked
        rw [Rows.change, Rows.isSubscribed_changeDiscussion_of_ne hmode now hother] at hlike
        exact ⟨_, horderly.finds_isSubscribed other place asked hasked, hlike⟩ }

theorem discussion_change_does_what_it_reports_of_following :
    let forum : Forum := { id := .ofNat 1, courseId := .ofNat 2 }
    let desk := (Desk.run ⟨.empty, {}, { enabled := true }⟩
      ((Call.subscribe (.ofNat 7) forum none true).program default)).2
    ∃ after, desk.run (change default .unsubscribed (.ofNat 7) forum (some (.ofNat 5)) true) =
        (.ok true, after) ∧
      DiscussionChange (fun _ => .ofNat 1) desk after (.ofNat 7) forum (.ofNat 5) false true := by
  intro forum desk
  have hdesk : desk.Reachable (fun _ => .ofNat 1) true := .call .start default trivial
  obtain ⟨changed, after, hrun, hchange⟩ := discussion_change_does_what_it_reports hdesk default
    .unsubscribed (.ofNat 7) forum rfl (.ofNat 5) rfl true
  have hreply : (desk.run (change default .unsubscribed (.ofNat 7) forum (some (.ofNat 5)) true)).1 =
      .ok true := rfl
  rw [hrun] at hreply
  cases hreply
  exact ⟨after, hrun, hchange⟩

end DiscussionBoard.Subscription
