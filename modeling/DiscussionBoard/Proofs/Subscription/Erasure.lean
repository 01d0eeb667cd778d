import DiscussionBoard.Proofs.Subscription.Outcome

/-!
# Erasure

Erasing a user, or a forum, removes all rows of that user or forum, no others, and counts them.
Nothing of them is left in the cache either, whatever was in it before, and no look-up right
afterwards finds them.
-/

namespace DiscussionBoard.Subscription

variable {desk : Desk} {user : Id} {forum : Forum}

/-! ### Rows -/

/-- Exactly the rows that pass a test are removed, and this many. -/
structure Rows.Loses (rows : Rows) (following : Following → Bool) (override : Override → Bool)
    (removed : Nat) (after : Rows) : Prop where
  followings : ∀ row,
    row ∈ after.followings.toList ↔ row ∈ rows.followings.toList ∧ following row = false
  overrides : ∀ row,
    row ∈ after.overrides.values ↔ row ∈ rows.overrides.values ∧ override row = false
  removed : removed = rows.count following override

theorem Rows.loses_removed (rows : Rows) (following : Following → Bool)
    (override : Override → Bool) :
    let outcome := rows.removed
      ((rows.keepFollowings fun row => !following row).keepOverrides fun row => !override row)
    rows.Loses following override outcome.1 outcome.2 where
  followings row := by
    have hkept : Table.contains (rows.followings.filter fun row _ => !following row) row = true ↔
        (!following row) = true ∧ Table.contains rows.followings row = true :=
      KeySet.contains_filter _ _ _
    rw [KeySet.mem_toList_iff, KeySet.mem_toList_iff, and_comm, ← Bool.not_eq_true']
    exact hkept
  overrides row := by
    have hkept : ((rows.keepFollowings fun row => !following row).keepOverrides
          fun row => !override row).overrideOf row.userId row.discussionId =
        (rows.overrideOf row.userId row.discussionId).filter fun row => !override row :=
      overrideOf_keepOverrides _
    rw [Rows.mem_values_iff, Rows.mem_values_iff, removed, hkept, Option.filter_eq_some_iff,
      Bool.not_eq_true']
  removed := by
    rw [removed_keep]
    simp only [Bool.not_not]

theorem Rows.loses_eraseUser (rows : Rows) (user : Id) :
    rows.Loses (·.userId = user) (·.userId = user) (rows.eraseUser user).1
      (rows.eraseUser user).2 := by
  simpa [eraseUser] using rows.loses_removed (·.userId = user) (·.userId = user)

theorem Rows.loses_eraseForum (rows : Rows) (forum : Id) :
    rows.Loses (·.forumId = forum) (·.forumId = forum) (rows.eraseForum forum).1
      (rows.eraseForum forum).2 := by
  simpa [eraseForum] using rows.loses_removed (·.forumId = forum) (·.forumId = forum)

/-! ### Look-ups of what is neither stored nor cached -/

theorem Rows.isSubscribed_of_absent {rows : Rows}
    (hmode : forum.subscriptionMode.isOptional = true) (register : Register)
    (hfollows : rows.follows user forum.id = false) {discussion : Option Id}
    (hstored : ∀ found, discussion = some found → rows.overrideOf user found = none) :
    rows.isSubscribed register user forum discussion = false := by
  cases discussion with
  | none => rw [isSubscribed, forumLevel_of_isOptional hmode, hfollows]
  | some found =>
      rw [isSubscribed_of_isOptional hmode, preference, hstored found rfl, hfollows]
      rfl

theorem Desk.LooksExcept.fst_run {α : Type} {stale : Slot → Prop} {program : Program signature α}
    {value : α} (h : desk.LooksExcept stale program value) : (desk.run program).1 = .ok value := by
  obtain ⟨cache, hrun, -⟩ := h
  rw [hrun]

/-- What is not in the cache cannot be wrong there. -/
theorem Desk.coherentExcept_cached (desk : Desk) :
    desk.CoherentExcept fun slot => desk.cache.at? slot ≠ none := by
  intro slot value hfresh hcached
  have hkept : desk.cache.at? slot ≠ none := Option.ne_none_iff_exists'.mpr ⟨value, hcached⟩
  exact (hfresh hkept).elim

theorem fst_run_overridesOf {forum : Id} (hcached : desk.cache.overridesOf user forum = none)
    (hstored : desk.rows.overridesOf user forum = []) :
    (desk.run (overridesOf user forum)).1 = .ok .empty := by
  have hlooks := looksExcept_overridesOf desk.coherentExcept_cached (not_not_intro hcached)
  rw [hlooks.fst_run, Rows.at, hstored]
  rfl

section Optional

variable (hmode : forum.subscriptionMode.isOptional = true)
  (hcached : desk.cache.followersOf forum.id = none)
include hmode hcached

theorem fst_run_subscribers :
    (desk.run (subscribers forum)).1 =
      .ok (KeySet.toList (desk.rows.at (.followers forum.id))) := by
  have hlooks := looksExcept_subscribers desk.coherentExcept_cached (not_not_intro hcached)
  rw [hlooks.fst_run, Rows.subscribers_of_isOptional hmode]

theorem fst_run_isSubscribed (hchoices : desk.cache.overridesOf user forum.id = none)
    (hfollows : desk.rows.follows user forum.id = false) {discussion : Option Id}
    (hstored : ∀ found, discussion = some found → desk.rows.overrideOf user found = none) :
    (desk.run (isSubscribed user forum discussion)).1 = .ok false := by
  have hchoice : ∀ found, discussion = some found →
      Table.get? (desk.rows.at (.choices user forum.id)) found =
        desk.rows.preference user found := by
    intro found hfound
    rw [Rows.get?_choices, Rows.preference, hstored found hfound]
    rfl
  have hlooks := looksExcept_isSubscribed desk.coherentExcept_cached (not_not_intro hcached)
    (not_not_intro hchoices) hchoice
  rw [hlooks.fst_run, Rows.isSubscribed_of_absent hmode desk.register hfollows hstored]

end Optional

/-! ### Erasing -/

/-- A user is in no snapshot and in no look-up. -/
structure Desk.KnowsNoUser (desk : Desk) (user : Id) : Prop where
  cachedChoices : ∀ forum, desk.cache.overridesOf user forum = none
  cachedFollowers : ∀ forum users, desk.cache.followersOf forum = some users →
    users.contains user = false
  isSubscribed : ∀ forum : Forum, forum.subscriptionMode.isOptional = true → ∀ discussion,
    (desk.run (isSubscribed user forum discussion)).1 = .ok false
  subscribers : ∀ forum : Forum, forum.subscriptionMode.isOptional = true →
    ∃ users, (desk.run (subscribers forum)).1 = .ok users ∧ user ∉ users
  choices : ∀ forum, (desk.run (overridesOf user forum)).1 = .ok .empty

/-- A forum is in no snapshot, and look-ups find no subscriptions to it. -/
structure Desk.KnowsNoForum (desk : Desk) (forum : Id) : Prop where
  cachedFollowers : desk.cache.followersOf forum = none
  cachedChoices : ∀ user, desk.cache.overridesOf user forum = none
  subscribers : ∀ place : Forum, place.id = forum → place.subscriptionMode.isOptional = true →
    (desk.run (subscribers place)).1 = .ok []
  isSubscribed : ∀ place : Forum, place.id = forum → place.subscriptionMode.isOptional = true →
    ∀ user, (desk.run (isSubscribed user place none)).1 = .ok false
  choices : ∀ user, (desk.run (overridesOf user forum)).1 = .ok .empty

theorem knowsNoUser_of_uncached (hfollowers : ∀ forum, desk.cache.followersOf forum = none)
    (hchoices : ∀ forum, desk.cache.overridesOf user forum = none)
    (hfollows : ∀ forum, desk.rows.follows user forum = false)
    (hstored : ∀ discussion, desk.rows.overrideOf user discussion = none) :
    desk.KnowsNoUser user where
  cachedChoices := hchoices
  cachedFollowers forum users hcached := by
    rw [hfollowers] at hcached
    cases hcached
  isSubscribed forum hmode _ :=
    fst_run_isSubscribed hmode (hfollowers _) (hchoices _) (hfollows _) fun found _ => hstored found
  subscribers forum hmode := by
    refine ⟨_, fst_run_subscribers hmode (hfollowers _), ?_⟩
    rw [KeySet.mem_toList_iff, Rows.contains_followers, hfollows]
    exact Bool.false_ne_true
  choices forum := by
    apply fst_run_overridesOf (hchoices forum)
    apply List.eq_nil_iff_forall_not_mem.mpr
    rintro ⟨discussion, preference⟩ hmem
    obtain ⟨override, hget, -⟩ := Rows.mem_overridesOf_iff.mp hmem
    rw [hstored] at hget
    cases hget

theorem knowsNoForum_of_uncached {forum : Id} (hfollowers : desk.cache.followersOf forum = none)
    (hchoices : ∀ user, desk.cache.overridesOf user forum = none)
    (hfollows : ∀ user, desk.rows.follows user forum = false)
    (hstored : ∀ user discussion override, desk.rows.overrideOf user discussion = some override →
      override.forumId ≠ forum) :
    desk.KnowsNoForum forum where
  cachedFollowers := hfollowers
  cachedChoices := hchoices
  subscribers := by
    rintro place rfl hmode
    rw [fst_run_subscribers hmode hfollowers]
    refine congrArg Except.ok (List.eq_nil_iff_forall_not_mem.mpr fun user hmem => ?_)
    rw [KeySet.mem_toList_iff, Rows.contains_followers, hfollows] at hmem
    cases hmem
  isSubscribed := by
    rintro place rfl hmode user
    exact fst_run_isSubscribed hmode hfollowers (hchoices user) (hfollows user) nofun
  choices user := by
    apply fst_run_overridesOf (hchoices user)
    apply List.eq_nil_iff_forall_not_mem.mpr
    rintro ⟨discussion, preference⟩ hmem
    obtain ⟨override, hget, hforum, -⟩ := Rows.mem_overridesOf_iff.mp hmem
    exact hstored user discussion override hget hforum

theorem run_eraseUser (desk : Desk) (user : Id) :
    desk.run (eraseUser user) = (.ok (desk.rows.eraseUser user).1,
      ⟨(desk.rows.eraseUser user).2, desk.register, desk.cache.invalidate (.user user)⟩) := rfl

theorem run_eraseForum (desk : Desk) (forum : Id) :
    desk.run (eraseForum forum) = (.ok (desk.rows.eraseForum forum).1,
      ⟨(desk.rows.eraseForum forum).2, desk.register, desk.cache.invalidate (.forum forum)⟩) := rfl

theorem knowsNoUser_of_erased (rows : Rows) (register : Register) (cache : Cache) (user : Id) :
    Desk.KnowsNoUser ⟨(rows.eraseUser user).2, register, cache.invalidate (.user user)⟩ user := by
  apply knowsNoUser_of_uncached
  · intro forum
    rw [Cache.followersOf_invalidate, Scope.coversFollowers, if_pos rfl]
  · intro forum
    rw [Cache.overridesOf_invalidate, Scope.coversOverrides, if_pos (by simp)]
  · intro forum
    rw [← Bool.not_eq_true, Rows.follows_eraseUser]
    exact fun h => h.2 rfl
  · intro discussion
    rw [Option.eq_none_iff_forall_ne_some]
    intro override hget
    exact (Rows.overrideOf_eraseUser_iff.mp hget).2 rfl

theorem knowsNoForum_of_erased (rows : Rows) (register : Register) (cache : Cache) (forum : Id) :
    Desk.KnowsNoForum ⟨(rows.eraseForum forum).2, register, cache.invalidate (.forum forum)⟩
      forum := by
  apply knowsNoForum_of_uncached
  · rw [Cache.followersOf_invalidate, Scope.coversFollowers, if_pos (by simp)]
  · intro user
    rw [Cache.overridesOf_invalidate, Scope.coversOverrides, if_pos (by simp)]
  · intro user
    rw [← Bool.not_eq_true, Rows.follows_eraseForum]
    exact fun h => h.2 rfl
  · intro user discussion override hget
    exact (Rows.overrideOf_eraseForum_iff.mp hget).2

/-- Whatever is stored and cached, an erasure removes exactly the rows of its user or forum, counts
them, and leaves nothing of them to be found. -/
theorem erasure_complete (desk : Desk) :
    (∀ user, ∃ removed after, desk.run (eraseUser user) = (.ok removed, after) ∧
      desk.rows.Loses (·.userId = user) (·.userId = user) removed after.rows ∧
      after.KnowsNoUser user) ∧
    ∀ forum, ∃ removed after, desk.run (eraseForum forum) = (.ok removed, after) ∧
      desk.rows.Loses (·.forumId = forum) (·.forumId = forum) removed after.rows ∧
      after.KnowsNoForum forum := by
  constructor
  · intro user
    exact ⟨_, _, run_eraseUser desk user, desk.rows.loses_eraseUser user,
      knowsNoUser_of_erased _ _ _ user⟩
  · intro forum
    exact ⟨_, _, run_eraseForum desk forum, desk.rows.loses_eraseForum forum,
      knowsNoForum_of_erased _ _ _ forum⟩

end DiscussionBoard.Subscription
