import DiscussionBoard.Proofs.Subscription.DiscussionChange

/-!
# What a change for a whole forum does

A change for a whole forum in which users may choose adds or removes the user's following, and on
the user's own request it takes away all of the user's overrides in the forum. So at once it changes
the answers for every discussion of the forum that it leaves without an override, and no answer that
comes from the rows of another user or another forum.
-/

namespace DiscussionBoard.Subscription

variable {owner : Id → Id} {enabled : Bool} {desk : Desk}

/-- A look-up that only rows of other users or of other forums have a part in. -/
def Call.Avoids (user forum : Id) : Call → Prop
  | isSubscribed other place _ => other ≠ user ∨ place.id ≠ forum
  | subscribers place | discussionSubscribers place _ => place.id ≠ forum
  | overridesOf other place => other ≠ user ∨ place ≠ forum
  | _ => False

namespace Rows

/-- Rows that are the same but for those of one user in one forum. -/
structure SameBeside (rows after : Rows) (user forum : Id) : Prop where
  follows : ∀ other place, other ≠ user ∨ place ≠ forum →
    after.follows other place = rows.follows other place
  overrides : ∀ other discussion override, other ≠ user ∨ override.forumId ≠ forum →
    (after.overrideOf other discussion = some override ↔
      rows.overrideOf other discussion = some override)

variable {rows after : Rows} {register : Register} {wanted : Preference}
  {user other discussion found : Id} {forum place : Forum} {userRequest : Bool}

/-! ### Look-ups of other rows -/

namespace SameBeside

variable (hsame : rows.SameBeside after user forum.id) (howned : rows.Owned owner)
  (hafter : after.Owned owner)

include hsame howned hafter

theorem overrideOf_eq (hbeside : other ≠ user ∨ owner found ≠ forum.id) :
    after.overrideOf other found = rows.overrideOf other found := by
  refine Option.ext fun override => ?_
  constructor
  · intro hget
    have hforum : override.forumId = owner found := hafter other found override hget
    exact (hsame.overrides other found override (by rwa [hforum])).mp hget
  · intro hget
    have hforum : override.forumId = owner found := howned other found override hget
    exact (hsame.overrides other found override (by rwa [hforum])).mpr hget

theorem isSubscribed_eq (hbeside : other ≠ user ∨ place.id ≠ forum.id) (asked : Option Id)
    (howner : ∀ found, asked = some found → owner found = place.id) :
    after.isSubscribed register other place asked = rows.isSubscribed register other place asked := by
  apply isSubscribed_congr (hsame.follows other place.id hbeside)
  intro found hfound
  exact hsame.overrideOf_eq howned hafter (by rwa [howner found hfound])

omit howned hafter in
theorem followers_eq (hplace : place.id ≠ forum.id) :
    after.at (.followers place.id) = rows.at (.followers place.id) := by
  apply followers_congr
  intro other
  rw [hsame.follows other place.id (.inr hplace)]

omit howned hafter in
theorem choices_eq {home : Id} (hbeside : other ≠ user ∨ home ≠ forum.id) :
    after.at (.choices other home) = rows.at (.choices other home) := by
  apply choices_congr
  refine fun discussion => Option.ext fun override => ?_
  rw [Option.filter_eq_some_iff, Option.filter_eq_some_iff]
  refine and_congr_left fun hhome => ?_
  have hforum : override.forumId = home := by simpa using hhome
  exact hsame.overrides other discussion override (by rwa [hforum])

omit howned hafter in
theorem subscribers_eq (hplace : place.id ≠ forum.id) :
    after.subscribers register place = rows.subscribers register place := by
  unfold subscribers
  rw [hsame.followers_eq hplace]

theorem discussionSubscribers_eq (hplace : place.id ≠ forum.id)
    (howner : owner discussion = place.id) :
    after.discussionSubscribers register place discussion =
      rows.discussionSubscribers register place discussion := by
  unfold discussionSubscribers
  rw [hsame.followers_eq hplace, hsame.subscribers_eq hplace]
  congr 2
  -- The choices for the discussion are listed in the order of storage, and only matter as a set.
  have hchoices : ∀ other, after.preference other discussion = rows.preference other discussion := by
    intro other
    rw [preference, preference,
      hsame.overrideOf_eq howned hafter (.inr (by rwa [howner]))]
  apply KeySet.ext
  intro other
  rw [contains_foldl_applyPreference (nodup_overridesFor after discussion),
    contains_foldl_applyPreference (nodup_overridesFor rows discussion),
    mem_overridesFor_iff_preference, mem_overridesFor_iff_preference, mem_map_overridesFor_iff,
    mem_map_overridesFor_iff, hchoices]

theorem mem_subscribers_iff (hother : other ≠ user) :
    other ∈ after.subscribers register place ↔ other ∈ rows.subscribers register place := by
  by_cases hmode : place.subscriptionMode.isOptional = true
  · rw [mem_subscribers_iff_of_isOptional hmode, mem_subscribers_iff_of_isOptional hmode,
      hsame.isSubscribed_eq howned hafter (.inl hother) none nofun]
  · have hlist : after.subscribers register place = rows.subscribers register place := by
      unfold subscribers
      cases hplace : place.subscriptionMode with
      | forced | disallowed => rfl
      | choose | initial => exact (hmode (by rw [hplace]; rfl)).elim
    rw [hlist]

theorem mem_discussionSubscribers_iff (hother : other ≠ user)
    (howner : owner discussion = place.id) :
    other ∈ after.discussionSubscribers register place discussion ↔
      other ∈ rows.discussionSubscribers register place discussion := by
  by_cases hmode : place.subscriptionMode.isOptional = true
  · rw [mem_discussionSubscribers_iff_of_isOptional hmode,
      mem_discussionSubscribers_iff_of_isOptional hmode,
      hsame.isSubscribed_eq howned hafter (.inl hother) _ (owner_of_some howner)]
  · rw [discussionSubscribers, if_neg hmode, discussionSubscribers, if_neg hmode]
    exact hsame.mem_subscribers_iff howned hafter hother

theorem outcome_eq (now : Instant) {call : Call} (hrespects : call.Respects owner)
    (havoids : call.Avoids user forum.id) :
    (call.outcome now register after).1 = (call.outcome now register rows).1 := by
  cases call with
  | isSubscribed other place asked =>
      refine congrArg Reply.switch (hsame.isSubscribed_eq howned hafter havoids asked ?_)
      rintro found rfl
      exact hrespects
  | subscribers place => exact congrArg Reply.users (hsame.subscribers_eq havoids)
  | discussionSubscribers place discussion =>
      exact congrArg Reply.users
        (hsame.discussionSubscribers_eq howned hafter havoids hrespects)
  | overridesOf other home => exact congrArg Reply.choices (hsame.choices_eq havoids)
  | subscribe | unsubscribe | enrolled | unenrolled | eraseUser | eraseForum | resetCache =>
      exact havoids.elim

end SameBeside

/-! ### The change of the rows -/

theorem follows_changeForum (rows : Rows) (wanted : Preference) (user forum : Id)
    (userRequest : Bool) (other place : Id) :
    (rows.changeForum wanted user forum userRequest).2.follows other place =
      if other = user ∧ place = forum then wanted.isSubscribed else rows.follows other place := by
  have hwritten : (rows.changeForum wanted user forum userRequest).2.follows other place =
      (rows.changeFollowing wanted user forum).2.follows other place := by
    cases userRequest <;> rfl
  rw [hwritten, Bool.eq_iff_iff, follows_changeFollowing]
  split <;> rfl

theorem fst_changeForum :
    (rows.changeForum wanted user forum.id userRequest).1 = true ↔
      rows.follows user forum.id ≠ wanted.isSubscribed := by
  rw [changeForum]
  cases wanted with
  | subscribed => simp [changeFollowing, follow, Preference.isSubscribed]
  | unsubscribed => simp [changeFollowing, unfollow, Preference.isSubscribed]

theorem overrides_changeForum_of_false :
    (rows.changeForum wanted user forum.id false).2.overrides = rows.overrides := by
  cases wanted <;> rfl

theorem forumId_ne_of_cleared {override : Override}
    (hget : (rows.changeForum wanted user forum.id true).2.overrideOf user discussion =
      some override) : override.forumId ≠ forum.id := by
  intro hforum
  exact (overrideOf_changeForum_iff.mp hget).2 ⟨rfl, rfl, hforum⟩

theorem sameBeside_changeForum (rows : Rows) (wanted : Preference) (user forum : Id)
    (userRequest : Bool) :
    rows.SameBeside (rows.changeForum wanted user forum userRequest).2 user forum where
  follows other place hbeside := by
    have hother : ¬(other = user ∧ place = forum) := by
      rintro ⟨huser, hforum⟩
      exact hbeside.elim (absurd huser) (absurd hforum)
    rw [follows_changeForum, if_neg hother]
  overrides other discussion override hbeside := by
    rw [overrideOf_changeForum_iff]
    refine and_iff_left ?_
    rintro ⟨-, huser, hforum⟩
    exact hbeside.elim (absurd huser) (absurd hforum)

section Answers

variable (hmode : forum.subscriptionMode.isOptional = true)
include hmode

theorem isSubscribed_changeForum :
    (rows.changeForum wanted user forum.id userRequest).2.isSubscribed register user forum none =
      wanted.isSubscribed := by
  rw [isSubscribed, forumLevel_of_isOptional hmode, follows_changeForum, if_pos ⟨rfl, rfl⟩]

/-- A discussion without an override follows the forum. -/
theorem isSubscribed_changeForum_of_inherited
    (hstored : (rows.changeForum wanted user forum.id userRequest).2.overrideOf user discussion =
      none) :
    (rows.changeForum wanted user forum.id userRequest).2.isSubscribed register user forum
      (some discussion) = wanted.isSubscribed := by
  rw [isSubscribed_of_isOptional hmode, preference, hstored, follows_changeForum, if_pos ⟨rfl, rfl⟩]
  rfl

theorem isSubscribed_changeForum_of_override
    (hstored : (rows.overrideOf user discussion).isSome = true) :
    (rows.changeForum wanted user forum.id false).2.isSubscribed register user forum
      (some discussion) = rows.isSubscribed register user forum (some discussion) := by
  obtain ⟨override, hget⟩ := Option.isSome_iff_exists.mp hstored
  have hkept : (rows.changeForum wanted user forum.id false).2.overrideOf user discussion =
      some override := by
    rw [overrideOf, overrides_changeForum_of_false]
    exact hget
  rw [isSubscribed_of_isOptional hmode, isSubscribed_of_isOptional hmode, preference, preference,
    hkept, hget]
  rfl

end Answers

end Rows

/-- A list of users is the same on two desks, but for one user. -/
def Desk.ListsLike (before after : Desk) (user : Id) (lookup : Program signature (List Id)) : Prop :=
  ∃ listed listedAfter, before.Finds lookup listed ∧ after.Finds lookup listedAfter ∧
    ∀ other ≠ user, (other ∈ listedAfter ↔ other ∈ listed)

/-- What becomes of a desk when a change for a whole forum asks for an answer. -/
structure ForumChange (owner : Id → Id) (before after : Desk) (user : Id) (forum : Forum)
    (wanted changed : Bool) : Prop where
  reports : ∃ subscribed, before.Finds (isSubscribed user forum none) subscribed ∧
    (changed = true ↔ subscribed ≠ wanted)
  answers : after.Finds (isSubscribed user forum none) wanted
  rows : before.rows.SameBeside after.rows user forum.id
  others : ∀ (now : Instant) (call : Call), call.Respects owner → call.Avoids user forum.id →
    before.FindsLike after (call.program now)
  lists : ∀ place : Forum, before.ListsLike after user (subscribers place)
  listsFor : ∀ (place : Forum) (discussion : Id), owner discussion = place.id →
    before.ListsLike after user (discussionSubscribers place discussion)

/-- On the user's own request no override of the user in the forum is left. -/
structure OverridesCleared (owner : Id → Id) (after : Desk) (user : Id) (forum : Forum)
    (wanted : Bool) : Prop where
  rows : ∀ discussion override, after.rows.overrideOf user discussion = some override →
    override.forumId ≠ forum.id
  answers : ∀ discussion, owner discussion = forum.id →
    after.Finds (isSubscribed user forum (some discussion)) wanted

/-- On behalf of the user every override is left as it is. -/
structure OverridesKept (owner : Id → Id) (before after : Desk) (user : Id) (forum : Forum)
    (wanted : Bool) : Prop where
  rows : after.rows.overrides = before.rows.overrides
  overridden : ∀ discussion, owner discussion = forum.id →
    (before.rows.overrideOf user discussion).isSome = true →
    before.FindsLike after (isSubscribed user forum (some discussion))
  inherited : ∀ discussion, owner discussion = forum.id →
    before.rows.overrideOf user discussion = none →
    after.Finds (isSubscribed user forum (some discussion)) wanted

section Run

variable {wanted : Preference} {user : Id} {forum : Forum} {userRequest : Bool} {cache : Cache}

theorem forumChange_of_orderly (hdesk : desk.Orderly owner)
    (hmode : forum.subscriptionMode.isOptional = true)
    (hafter : Desk.Orderly owner
      ⟨(desk.rows.changeForum wanted user forum.id userRequest).2, desk.register, cache⟩) :
    ForumChange owner desk
      ⟨(desk.rows.changeForum wanted user forum.id userRequest).2, desk.register, cache⟩ user forum
      wanted.isSubscribed (desk.rows.changeForum wanted user forum.id userRequest).1 := by
  have hsame := desk.rows.sameBeside_changeForum wanted user forum.id userRequest
  have hbefore := hdesk.finds_isSubscribed user forum none nofun
  rw [Rows.isSubscribed, Rows.forumLevel_of_isOptional hmode] at hbefore
  have hanswers := hafter.finds_isSubscribed user forum none nofun
  rw [Rows.isSubscribed_changeForum hmode] at hanswers
  exact
    { reports := ⟨_, hbefore, Rows.fst_changeForum⟩
      answers := hanswers
      rows := hsame
      others := by
        intro now call hrespects havoids
        have hfinds := hafter.finds_program now hrespects
        rw [hsame.outcome_eq hdesk.owned hafter.owned now hrespects havoids] at hfinds
        exact ⟨_, hdesk.finds_program now hrespects, hfinds⟩
      lists := fun place => ⟨_, _, (looks_subscribers hdesk.coherent place).finds,
        (looks_subscribers hafter.coherent place).finds,
        fun other hother => hsame.mem_subscribers_iff hdesk.owned hafter.owned hother⟩
      listsFor := fun place discussion howner =>
        ⟨_, _, (looks_discussionSubscribers hdesk.coherent place discussion).finds,
          (looks_discussionSubscribers hafter.coherent place discussion).finds, fun other hother =>
            hsame.mem_discussionSubscribers_iff hdesk.owned hafter.owned hother howner⟩ }

theorem overridesCleared_of_orderly (hmode : forum.subscriptionMode.isOptional = true)
    (hafter : Desk.Orderly owner
      ⟨(desk.rows.changeForum wanted user forum.id true).2, desk.register, cache⟩) :
    OverridesCleared owner
      ⟨(desk.rows.changeForum wanted user forum.id true).2, desk.register, cache⟩ user forum
      wanted.isSubscribed where
  rows _ _ hget := Rows.forumId_ne_of_cleared hget
  answers discussion howner := by
    have hgone : (desk.rows.changeForum wanted user forum.id true).2.overrideOf user discussion =
        none := by
      rw [Option.eq_none_iff_forall_ne_some]
      intro override hget
      exact Rows.forumId_ne_of_cleared hget ((hafter.owned user discussion override hget).trans howner)
    have hfinds := hafter.finds_isSubscribed user forum _ (owner_of_some howner)
    rwa [Rows.isSubscribed_changeForum_of_inherited hmode hgone] at hfinds

theorem overridesKept_of_orderly (hdesk : desk.Orderly owner)
    (hmode : forum.subscriptionMode.isOptional = true)
    (hafter : Desk.Orderly owner
      ⟨(desk.rows.changeForum wanted user forum.id false).2, desk.register, cache⟩) :
    OverridesKept owner desk
      ⟨(desk.rows.changeForum wanted user forum.id false).2, desk.register, cache⟩ user forum
      wanted.isSubscribed where
  rows := Rows.overrides_changeForum_of_false
  overridden discussion howner hstored := by
    have hplace := owner_of_some howner
    have hfinds := hafter.finds_isSubscribed user forum _ hplace
    rw [Rows.isSubscribed_changeForum_of_override hmode hstored] at hfinds
    exact ⟨_, hdesk.finds_isSubscribed user forum _ hplace, hfinds⟩
  inherited discussion howner hstored := by
    have hgone : (desk.rows.changeForum wanted user forum.id false).2.overrideOf user discussion =
        none := by
      rw [Rows.overrideOf, Rows.overrides_changeForum_of_false]
      exact hstored
    have hfinds := hafter.finds_isSubscribed user forum _ (owner_of_some howner)
    rwa [Rows.isSubscribed_changeForum_of_inherited hmode hgone] at hfinds

end Run

/-- Subscribing to a forum and unsubscribing from it, on a reachable desk and where users may choose,
come to an end, report whether the answer for the user was another one, and make it the wanted one.
On the user's own request every discussion of the forum follows it from then on, and else those
without an override do. Rows and answers of other users and other forums stay as they were. -/
theorem forum_change_does_what_it_reports (hdesk : desk.Reachable owner enabled) (now : Instant)
    (wanted : Preference) (user : Id) (forum : Forum)
    (hmode : forum.subscriptionMode.isOptional = true) (userRequest : Bool) :
    ∃ changed after,
      desk.run (change now wanted user forum none userRequest) = (.ok changed, after) ∧
      ForumChange owner desk after user forum wanted.isSubscribed changed ∧
      (userRequest = true → OverridesCleared owner after user forum wanted.isSubscribed) ∧
      (userRequest = false → OverridesKept owner desk after user forum wanted.isSubscribed) := by
  have horderly := hdesk.orderly
  obtain ⟨cache, hrun, hafter⟩ :=
    horderly.run_change now wanted user forum none nofun userRequest
  refine ⟨_, _, hrun, forumChange_of_orderly horderly hmode hafter, ?_, ?_⟩
  · rintro rfl
    exact overridesCleared_of_orderly hmode hafter
  · rintro rfl
    exact overridesKept_of_orderly horderly hmode hafter

/-- Two discussions of a followed forum, one of which the user left. -/
theorem forum_change_does_what_it_reports_of_override :
    let forum : Forum := { id := .ofNat 1, courseId := .ofNat 2 }
    let following := (Desk.run ⟨.empty, {}, { enabled := true }⟩
      ((Call.subscribe (.ofNat 7) forum none true).program default)).2
    let desk := (following.run
      ((Call.unsubscribe (.ofNat 7) forum (some (.ofNat 5)) true).program default)).2
    (∃ after, desk.run (change default .unsubscribed (.ofNat 7) forum none true) =
        (.ok true, after) ∧
      after.Finds (isSubscribed (.ofNat 7) forum (some (.ofNat 5))) false ∧
      after.Finds (isSubscribed (.ofNat 7) forum (some (.ofNat 6))) false) ∧
    ∃ after, desk.run (change default .subscribed (.ofNat 7) forum none false) =
        (.ok false, after) ∧
      after.Finds (isSubscribed (.ofNat 7) forum (some (.ofNat 6))) true := by
  intro forum following desk
  have hfollowing : following.Reachable (fun _ => .ofNat 1) true := .call .start default trivial
  have hdesk : desk.Reachable (fun _ => .ofNat 1) true := .call hfollowing default rfl
  constructor
  · obtain ⟨changed, after, hrun, -, hcleared, -⟩ := forum_change_does_what_it_reports hdesk default
      .unsubscribed (.ofNat 7) forum rfl true
    have hreply : (desk.run (change default .unsubscribed (.ofNat 7) forum none true)).1.toOption =
        some true := by decide +kernel
    rw [hrun] at hreply
    cases hreply
    exact ⟨after, hrun, (hcleared rfl).answers _ rfl, (hcleared rfl).answers _ rfl⟩
  · obtain ⟨changed, after, hrun, -, -, hkept⟩ := forum_change_does_what_it_reports hdesk default
      .subscribed (.ofNat 7) forum rfl false
    have hreply : (desk.run (change default .subscribed (.ofNat 7) forum none false)).1.toOption =
        some false := by decide +kernel
    rw [hrun] at hreply
    cases hreply
    exact ⟨after, hrun, (hkept rfl).inherited _ rfl (by decide +kernel)⟩

end DiscussionBoard.Subscription
