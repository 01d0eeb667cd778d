import DiscussionBoard.Proofs.Subscription.Coherence

/-!
# What calls amount to

Each call told as a function of the stored rows and the register, without a cache. On a coherent
desk every call replies with this outcome and leaves the rows of this outcome. A single look-up
needs only the snapshots that it may find to be right.
-/

namespace DiscussionBoard.Subscription

/-! ### Outcomes -/

namespace Rows

/-- Whether a user is subscribed to a forum as a whole. -/
def forumLevel (rows : Rows) (register : Register) (user : Id) (forum : Forum) : Bool :=
  match forum.subscriptionMode with
  | .forced => register.allows user forum.id
  | .disallowed => false
  | .choose | .initial => rows.follows user forum.id

def preference (rows : Rows) (user discussion : Id) : Option Preference :=
  (rows.overrideOf user discussion).map (·.preference)

def isSubscribed (rows : Rows) (register : Register) (user : Id) (forum : Forum) :
    (discussion : Option Id) → Bool
  | some discussion =>
    if forum.subscriptionMode.isOptional then
      ((rows.preference user discussion).map (·.isSubscribed)).getD
        (rows.forumLevel register user forum)
    else rows.forumLevel register user forum
  | none => rows.forumLevel register user forum

def subscribers (rows : Rows) (register : Register) (forum : Forum) : List Id :=
  match forum.subscriptionMode with
  | .disallowed => []
  | .forced =>
    ascending ((register.enrolled forum.courseId).filter fun user => register.allows user forum.id)
  | .choose | .initial => KeySet.toList (rows.at (.followers forum.id))

def discussionSubscribers (rows : Rows) (register : Register) (forum : Forum) (discussion : Id) :
    List Id :=
  if forum.subscriptionMode.isOptional then
    KeySet.toList ((rows.overridesFor discussion).foldl applyPreference
      (rows.at (.followers forum.id)))
  else rows.subscribers register forum

def changeFollowing (rows : Rows) (wanted : Preference) (user forum : Id) : Bool × Rows :=
  match wanted with
  | .subscribed => rows.follow user forum
  | .unsubscribed => rows.unfollow user forum

def changeForum (rows : Rows) (wanted : Preference) (user forum : Id) (userRequest : Bool) :
    Bool × Rows :=
  let (changed, rows) := rows.changeFollowing wanted user forum
  (changed, if userRequest then (rows.clearOverrides user forum).2 else rows)

/-- The one write of a change to a discussion, by the forum level and the stored choice. -/
def settle (rows : Rows) (now : Instant) (wanted : Preference) (user forum discussion : Id)
    (inherited : Bool) (existing : Option Preference) : Bool × Rows :=
  if inherited = wanted.isSubscribed then
    if existing = some wanted.opposite then rows.dropOverride user discussion else (false, rows)
  else if existing = some wanted then (false, rows)
  else rows.putOverride ⟨user, forum, discussion, wanted, now⟩

def changeDiscussion (rows : Rows) (register : Register) (now : Instant) (wanted : Preference)
    (user : Id) (forum : Forum) (discussion : Id) : Bool × Rows :=
  rows.settle now wanted user forum.id discussion (rows.forumLevel register user forum)
    (rows.preference user discussion)

def change (rows : Rows) (register : Register) (now : Instant) (wanted : Preference) (user : Id)
    (forum : Forum) (discussion : Option Id) (userRequest : Bool) : Bool × Rows :=
  match discussion with
  | none => rows.changeForum wanted user forum.id userRequest
  | some discussion => rows.changeDiscussion register now wanted user forum discussion

def enrolled (rows : Rows) (user : Id) : List Forum → Nat × Rows
  | [] => (0, rows)
  | forum :: rest =>
    if forum.subscriptionMode = .initial then
      let (added, rows) := rows.changeForum .subscribed user forum.id false
      let (others, rows) := rows.enrolled user rest
      (added.toNat + others, rows)
    else rows.enrolled user rest

def unenrolled (rows : Rows) (user : Id) : List Forum → Nat × Rows
  | [] => (0, rows)
  | forum :: rest =>
    let (unfollowed, rows) := rows.unfollow user forum.id
    let (cleared, rows) := rows.clearOverrides user forum.id
    let (others, rows) := rows.unenrolled user rest
    (unfollowed.toNat + cleared + others, rows)

end Rows

/-- The reply to a call and the rows after it. -/
def Call.outcome (now : Instant) (register : Register) (rows : Rows) : Call → Reply × Rows
  | .isSubscribed user forum discussion =>
    (.switch (rows.isSubscribed register user forum discussion), rows)
  | .subscribe user forum discussion userRequest =>
    (rows.change register now .subscribed user forum discussion userRequest).map .switch id
  | .unsubscribe user forum discussion userRequest =>
    (rows.change register now .unsubscribed user forum discussion userRequest).map .switch id
  | .subscribers forum => (.users (rows.subscribers register forum), rows)
  | .discussionSubscribers forum discussion =>
    (.users (rows.discussionSubscribers register forum discussion), rows)
  | .overridesOf user forum => (.choices (rows.at (.choices user forum)), rows)
  | .enrolled user forums => (rows.enrolled user forums).map .count id
  | .unenrolled user forums => (rows.unenrolled user forums).map .count id
  | .eraseUser user => (rows.eraseUser user).map .count id
  | .eraseForum forum => (rows.eraseForum forum).map .count id
  | .resetCache => (.nothing, rows)

section Optional

variable {forum : Forum} (hmode : forum.subscriptionMode.isOptional = true)
include hmode

theorem Rows.forumLevel_of_isOptional (rows : Rows) (register : Register) (user : Id) :
    rows.forumLevel register user forum = rows.follows user forum.id := by
  rw [forumLevel]
  cases hforum : forum.subscriptionMode with
  | choose | initial => rfl
  | forced | disallowed => simp [hforum, SubscriptionMode.isOptional] at hmode

theorem Rows.isSubscribed_of_isOptional (rows : Rows) (register : Register) (user discussion : Id) :
    rows.isSubscribed register user forum (some discussion) =
      ((rows.preference user discussion).map (·.isSubscribed)).getD (rows.follows user forum.id) := by
  rw [isSubscribed, if_pos hmode, rows.forumLevel_of_isOptional hmode]

theorem Rows.subscribers_of_isOptional (rows : Rows) (register : Register) :
    rows.subscribers register forum = KeySet.toList (rows.at (.followers forum.id)) := by
  rw [subscribers]
  cases hforum : forum.subscriptionMode with
  | choose | initial => rfl
  | forced | disallowed => simp [hforum, SubscriptionMode.isOptional] at hmode

end Optional

theorem Rows.follows_changeFollowing {rows : Rows} {wanted : Preference}
    {user forum otherUser otherForum : Id} :
    (rows.changeFollowing wanted user forum).2.follows otherUser otherForum = true ↔
      if otherUser = user ∧ otherForum = forum then wanted.isSubscribed = true
      else rows.follows otherUser otherForum = true := by
  cases wanted with
  | subscribed =>
      rw [changeFollowing, follows_follow]
      by_cases hsame : otherUser = user ∧ otherForum = forum <;> simp [hsame, Preference.isSubscribed]
  | unsubscribed =>
      rw [changeFollowing, follows_unfollow]
      by_cases hsame : otherUser = user ∧ otherForum = forum <;> simp [hsame, Preference.isSubscribed]

theorem Rows.putOverride_of_preference_ne {rows : Rows} {override : Override}
    (hstored : rows.preference override.userId override.discussionId ≠ some override.preference) :
    rows.putOverride override = (true, rows.insertOverride override) := by
  rw [putOverride, if_neg]
  cases hget : rows.overrideOf override.userId override.discussionId with
  | none => simp
  | some stored => simpa [preference, hget] using hstored

theorem Rows.overrideOf_changeForum_iff {rows : Rows} {wanted : Preference}
    {user forum otherUser discussion : Id} {userRequest : Bool} {override : Override} :
    (rows.changeForum wanted user forum userRequest).2.overrideOf otherUser discussion =
        some override ↔
      rows.overrideOf otherUser discussion = some override ∧
        ¬(userRequest = true ∧ otherUser = user ∧ override.forumId = forum) := by
  have hwritten : (rows.changeFollowing wanted user forum).2.overrideOf otherUser discussion =
      rows.overrideOf otherUser discussion := by
    cases wanted <;> rfl
  rw [changeForum, ← hwritten]
  cases userRequest with
  | false => simp
  | true => simpa using overrideOf_clearOverrides_iff

/-! ### Look-ups -/

variable {α β : Type} {desk : Desk} {owner : Id → Id} {stale : Slot → Prop}

/-- A program only looks things up: it gives a value and leaves all but the cache, where no snapshot
becomes stale. -/
def Desk.LooksExcept (desk : Desk) (stale : Slot → Prop) (program : Program signature α)
    (value : α) : Prop :=
  ∃ cache, desk.run program = (.ok value, { desk with cache }) ∧
    Desk.CoherentExcept { desk with cache } stale

/-- A program only looks things up: it gives a value and leaves all but the cache, which stays
coherent. -/
def Desk.Looks (desk : Desk) (program : Program signature α) (value : α) : Prop :=
  ∃ cache, desk.run program = (.ok value, { desk with cache }) ∧ Desk.Coherent { desk with cache }

theorem Desk.looks_iff {program : Program signature α} {value : α} :
    desk.Looks program value ↔ desk.LooksExcept (fun _ => False) program value := by
  simp only [Looks, LooksExcept, coherent_iff]

namespace Desk.LooksExcept

theorem pure (hcoherent : desk.CoherentExcept stale) (value : α) :
    desk.LooksExcept stale (pure value) value :=
  ⟨desk.cache, rfl, hcoherent⟩

theorem bind {program : Program signature α} {rest : α → Program signature β} {value : α}
    {result : β} (hprogram : desk.LooksExcept stale program value)
    (hrest : ∀ cache, Desk.CoherentExcept { desk with cache } stale →
      Desk.LooksExcept { desk with cache } stale (rest value) result) :
    desk.LooksExcept stale (program >>= rest) result := by
  obtain ⟨cache, hrun, hcoherent⟩ := hprogram
  obtain ⟨last, hlast, hkept⟩ := hrest cache hcoherent
  exact ⟨last, (run_bind_of_ok hrun rest).trans hlast, hkept⟩

theorem askRows {request : RowRequest} {rest : request.Answer → Program signature α} {result : α}
    (hrows : (Rows.perform request desk.rows).2 = desk.rows)
    (hrest : desk.LooksExcept stale (rest (Rows.perform request desk.rows).1) result) :
    desk.LooksExcept stale (askRows request >>= rest) result := by
  obtain ⟨cache, hrun, hcoherent⟩ := hrest
  refine ⟨cache, (run_bind_of_ok (run_askRows desk request) rest).trans ?_, hcoherent⟩
  rw [hrows, hrun]

theorem askRegister {request : RegisterRequest} {rest : request.Answer → Program signature α}
    {result : α}
    (hrest : desk.LooksExcept stale (rest (answerFromRegister desk.register request)) result) :
    desk.LooksExcept stale (askRegister request >>= rest) result := by
  obtain ⟨cache, hrun, hcoherent⟩ := hrest
  exact ⟨cache, (run_bind_of_ok (run_askRegister desk request) rest).trans hrun, hcoherent⟩

theorem askCache {request : CacheRequest} {rest : request.Answer → Program signature α}
    {result : α} (hcache : (Cache.perform request desk.cache).2 = desk.cache)
    (hrest : desk.LooksExcept stale (rest (Cache.perform request desk.cache).1) result) :
    desk.LooksExcept stale (askCache request >>= rest) result := by
  obtain ⟨cache, hrun, hcoherent⟩ := hrest
  refine ⟨cache, (run_bind_of_ok (run_askCache desk request) rest).trans ?_, hcoherent⟩
  rw [hcache, hrun]

end Desk.LooksExcept

theorem Desk.Looks.map {program : Program signature α} {value : α}
    (hprogram : desk.Looks program value) (f : α → β) :
    desk.Looks (f <$> program) (f value) := by
  obtain ⟨cache, hrun, hcoherent⟩ := hprogram
  exact ⟨cache, run_map_of_ok hrun f, hcoherent⟩

theorem looksExcept_keepFollowers (hcoherent : desk.CoherentExcept stale) (forum : Id)
    (ticket : UInt64) :
    desk.LooksExcept stale
      (askCache (.keepFollowers forum (desk.rows.at (.followers forum)) ticket)) () := by
  refine ⟨_, rfl, fun slot value hfresh hcached => ?_⟩
  rcases Cache.at?_keepFollowers hcached with ⟨-, hnew⟩ | hold
  · cases hnew
    rfl
  · exact hcoherent slot value hfresh hold

theorem looksExcept_keepOverrides (hcoherent : desk.CoherentExcept stale) (user forum : Id)
    (ticket : UInt64) :
    desk.LooksExcept stale
      (askCache (.keepOverrides user forum (desk.rows.at (.choices user forum)) ticket)) () := by
  refine ⟨_, rfl, fun slot value hfresh hcached => ?_⟩
  rcases Cache.at?_keepOverrides hcached with ⟨-, hnew⟩ | hold
  · cases hnew
    rfl
  · exact hcoherent slot value hfresh hold

theorem looksExcept_followersOf (hcoherent : desk.CoherentExcept stale) {forum : Id}
    (hfresh : ¬stale (.followers forum)) :
    desk.LooksExcept stale (followersOf forum) (desk.rows.at (.followers forum)) := by
  refine .askCache rfl ?_
  dsimp only [Cache.perform]
  cases hcached : desk.cache.followersOf forum with
  | some users =>
      obtain rfl := hcoherent (.followers forum) users hfresh hcached
      exact .pure hcoherent _
  | none =>
      refine .askCache rfl (.askRows rfl ?_)
      exact (looksExcept_keepFollowers hcoherent forum _).bind fun _ hkept => .pure hkept _

theorem looksExcept_overridesOf (hcoherent : desk.CoherentExcept stale) {user forum : Id}
    (hfresh : ¬stale (.choices user forum)) :
    desk.LooksExcept stale (overridesOf user forum) (desk.rows.at (.choices user forum)) := by
  refine .askCache rfl ?_
  dsimp only [Cache.perform]
  cases hcached : desk.cache.overridesOf user forum with
  | some choices =>
      obtain rfl := hcoherent (.choices user forum) choices hfresh hcached
      exact .pure hcoherent _
  | none =>
      refine .askCache rfl (.askRows rfl ?_)
      exact (looksExcept_keepOverrides hcoherent user forum _).bind fun _ hkept => .pure hkept _

theorem looksExcept_forumLevel (hcoherent : desk.CoherentExcept stale) (user : Id) {forum : Forum}
    (hfresh : ¬stale (.followers forum.id)) :
    desk.LooksExcept stale (forumLevel user forum)
      (desk.rows.forumLevel desk.register user forum) := by
  unfold forumLevel Rows.forumLevel
  cases forum.subscriptionMode with
  | forced => exact ⟨desk.cache, rfl, hcoherent⟩
  | disallowed => exact .pure hcoherent _
  | choose | initial =>
      refine .askCache rfl ?_
      dsimp only [Cache.perform]
      split
      · rw [← Rows.contains_followers]
        exact (looksExcept_followersOf hcoherent hfresh).bind fun _ hkept => .pure hkept _
      · exact ⟨desk.cache, rfl, hcoherent⟩

theorem looksExcept_storedPreference (hcoherent : desk.CoherentExcept stale)
    (user discussion : Id) :
    desk.LooksExcept stale (storedPreference user discussion)
      (desk.rows.preference user discussion) :=
  .askRows rfl (.pure hcoherent _)

/-- A user's choices in a forum hold the choice for each discussion of the forum. -/
theorem Rows.get?_choices_of_owner {rows : Rows} {user forum discussion : Id}
    (howned : rows.Owned owner) (howner : owner discussion = forum) :
    Table.get? (rows.at (.choices user forum)) discussion = rows.preference user discussion := by
  rw [Rows.get?_choices, Rows.preference]
  cases hget : rows.overrideOf user discussion with
  | none => rfl
  | some override =>
      have hforum : override.forumId = forum := (howned user discussion override hget).trans howner
      rw [Option.filter_some_pos (by simpa using hforum)]

theorem looksExcept_preference (hcoherent : desk.CoherentExcept stale)
    {user forum discussion : Id} (hfresh : ¬stale (.choices user forum))
    (hchoice : Table.get? (desk.rows.at (.choices user forum)) discussion =
      desk.rows.preference user discussion) :
    desk.LooksExcept stale (preference user forum discussion)
      (desk.rows.preference user discussion) := by
  refine .askCache rfl ?_
  dsimp only [Cache.perform]
  split
  · rw [← hchoice]
    exact (looksExcept_overridesOf hcoherent hfresh).bind fun _ hkept => .pure hkept _
  · exact looksExcept_storedPreference hcoherent user discussion

theorem looksExcept_isSubscribed (hcoherent : desk.CoherentExcept stale) {user : Id}
    {forum : Forum} {discussion : Option Id} (hfollowers : ¬stale (.followers forum.id))
    (hchoices : ¬stale (.choices user forum.id))
    (hchoice : ∀ found, discussion = some found →
      Table.get? (desk.rows.at (.choices user forum.id)) found = desk.rows.preference user found) :
    desk.LooksExcept stale (isSubscribed user forum discussion)
      (desk.rows.isSubscribed desk.register user forum discussion) := by
  apply (looksExcept_forumLevel hcoherent user hfollowers).bind
  intro cache hkept
  cases discussion with
  | none => exact .pure hkept _
  | some discussion =>
      unfold Rows.isSubscribed
      dsimp only
      split
      · exact (looksExcept_preference hkept hchoices (hchoice discussion rfl)).bind
          fun _ hkept => .pure hkept _
      · exact .pure hkept _

theorem looksExcept_allowedAmong (hcoherent : desk.CoherentExcept stale) (forum : Id)
    (users : List Id) :
    desk.LooksExcept stale (allowedAmong forum users)
      (users.filter fun user => desk.register.allows user forum) := by
  induction users with
  | nil => exact .pure hcoherent _
  | cons user rest ih =>
      refine .askRegister (ih.bind fun cache hkept => ?_)
      rw [List.filter_cons]
      exact .pure hkept _

theorem looksExcept_subscribers (hcoherent : desk.CoherentExcept stale) {forum : Forum}
    (hfresh : ¬stale (.followers forum.id)) :
    desk.LooksExcept stale (subscribers forum) (desk.rows.subscribers desk.register forum) := by
  unfold subscribers Rows.subscribers
  cases forum.subscriptionMode with
  | disallowed => exact .pure hcoherent _
  | forced =>
      refine .askRegister ((looksExcept_allowedAmong hcoherent forum.id _).bind
        fun cache hkept => ?_)
      exact .pure hkept _
  | choose | initial =>
      exact (looksExcept_followersOf hcoherent hfresh).bind fun _ hkept => .pure hkept _

/-! ### Look-ups on a coherent desk -/

theorem looks_overridesOf (hcoherent : desk.Coherent) (user forum : Id) :
    desk.Looks (overridesOf user forum) (desk.rows.at (.choices user forum)) :=
  Desk.looks_iff.mpr (looksExcept_overridesOf (Desk.coherent_iff.mp hcoherent) id)

theorem looks_isSubscribed (hcoherent : desk.Coherent) (howned : desk.rows.Owned owner)
    (user : Id) (forum : Forum) {discussion : Option Id}
    (howner : ∀ found, discussion = some found → owner found = forum.id) :
    desk.Looks (isSubscribed user forum discussion)
      (desk.rows.isSubscribed desk.register user forum discussion) := by
  refine Desk.looks_iff.mpr (looksExcept_isSubscribed (Desk.coherent_iff.mp hcoherent) id id ?_)
  intro found hfound
  exact Rows.get?_choices_of_owner howned (howner found hfound)

theorem looks_subscribers (hcoherent : desk.Coherent) (forum : Forum) :
    desk.Looks (subscribers forum) (desk.rows.subscribers desk.register forum) :=
  Desk.looks_iff.mpr (looksExcept_subscribers (Desk.coherent_iff.mp hcoherent) id)

theorem looks_discussionSubscribers (hcoherent : desk.Coherent) (forum : Forum)
    (discussion : Id) :
    desk.Looks (discussionSubscribers forum discussion)
      (desk.rows.discussionSubscribers desk.register forum discussion) := by
  unfold discussionSubscribers Rows.discussionSubscribers
  split
  · apply Desk.looks_iff.mpr
    apply (looksExcept_followersOf (Desk.coherent_iff.mp hcoherent) id).bind
    intro cache hkept
    exact .askRows rfl (.pure hkept _)
  · exact looks_subscribers hcoherent forum

/-! ### Changes -/

/-- A program gives a value and leaves rows, whatever is left in the cache. -/
def Desk.Settles (desk : Desk) (program : Program signature α) (outcome : α × Rows) : Prop :=
  ∃ cache, desk.run program = (.ok outcome.1, ⟨outcome.2, desk.register, cache⟩)

theorem Desk.Looks.settles {program : Program signature α} {value : α}
    (h : desk.Looks program value) : desk.Settles program (value, desk.rows) := by
  obtain ⟨cache, hrun, -⟩ := h
  exact ⟨cache, hrun⟩

namespace Desk.Settles

theorem bind {program : Program signature α} {rest : α → Program signature β} {value : α}
    {rows : Rows} {outcome : β × Rows} (hprogram : desk.Settles program (value, rows))
    (hrest : ∀ cache, Desk.Settles ⟨rows, desk.register, cache⟩ (rest value) outcome) :
    desk.Settles (program >>= rest) outcome := by
  obtain ⟨cache, hrun⟩ := hprogram
  obtain ⟨last, hlast⟩ := hrest cache
  exact ⟨last, (run_bind_of_ok hrun rest).trans hlast⟩

theorem bind_of_looks {program : Program signature α} {rest : α → Program signature β} {value : α}
    {outcome : β × Rows} (hprogram : desk.LooksExcept stale program value)
    (hrest : ∀ cache, Desk.CoherentExcept { desk with cache } stale →
      Desk.Settles { desk with cache } (rest value) outcome) :
    desk.Settles (program >>= rest) outcome := by
  obtain ⟨cache, hrun, hcoherent⟩ := hprogram
  obtain ⟨last, hlast⟩ := hrest cache hcoherent
  exact ⟨last, (run_bind_of_ok hrun rest).trans hlast⟩

theorem map {program : Program signature α} {outcome : α × Rows}
    (h : desk.Settles program outcome) (f : α → β) :
    desk.Settles (f <$> program) (outcome.map f id) := by
  obtain ⟨cache, hrun⟩ := h
  exact ⟨cache, run_map_of_ok hrun f⟩

end Desk.Settles

theorem settles_askRows (desk : Desk) (request : RowRequest) :
    desk.Settles (askRows request) (Rows.perform request desk.rows) :=
  ⟨desk.cache, rfl⟩

theorem settles_changeForum (desk : Desk) (wanted : Preference) (user forum : Id)
    (userRequest : Bool) :
    desk.Settles (changeForum wanted user forum userRequest)
      (desk.rows.changeForum wanted user forum userRequest) := by
  cases wanted <;> cases userRequest <;> exact ⟨_, rfl⟩

theorem settles_settleDiscussion (desk : Desk) (now : Instant) (wanted : Preference)
    (user forum discussion : Id) (inherited : Bool) (existing : Option Preference) :
    desk.Settles (settleDiscussion now wanted user forum discussion inherited existing)
      (desk.rows.settle now wanted user forum discussion inherited existing) := by
  unfold settleDiscussion Rows.settle
  split
  · split
    · exact ⟨_, rfl⟩
    · exact ⟨_, rfl⟩
  · split
    · exact ⟨_, rfl⟩
    · exact ⟨_, rfl⟩

theorem settles_changeDiscussion (hcoherent : desk.CoherentExcept stale) (now : Instant)
    (wanted : Preference) (user : Id) {forum : Forum} (hfresh : ¬stale (.followers forum.id))
    (discussion : Id) :
    desk.Settles (changeDiscussion now wanted user forum discussion)
      (desk.rows.changeDiscussion desk.register now wanted user forum discussion) := by
  rw [changeDiscussion]
  refine .bind_of_looks (looksExcept_forumLevel hcoherent user hfresh) fun cache hfirst => ?_
  refine .bind_of_looks (looksExcept_storedPreference hfirst user discussion)
    fun cache hsecond => ?_
  exact (settles_settleDiscussion _ now wanted user forum.id discussion _ _).bind fun _ => ⟨_, rfl⟩

theorem settles_change (hcoherent : desk.CoherentExcept stale) (now : Instant)
    (wanted : Preference) (user : Id) {forum : Forum} (hfresh : ¬stale (.followers forum.id))
    (discussion : Option Id) (userRequest : Bool) :
    desk.Settles (change now wanted user forum discussion userRequest)
      (desk.rows.change desk.register now wanted user forum discussion userRequest) := by
  cases discussion with
  | none => exact settles_changeForum desk wanted user forum.id userRequest
  | some discussion => exact settles_changeDiscussion hcoherent now wanted user hfresh discussion

theorem settles_enrolled (desk : Desk) (user : Id) (forums : List Forum) :
    desk.Settles (enrolled user forums) (desk.rows.enrolled user forums) := by
  induction forums generalizing desk with
  | nil => exact ⟨desk.cache, rfl⟩
  | cons forum rest ih =>
      rw [enrolled, Rows.enrolled]
      split
      · apply (settles_changeForum desk .subscribed user forum.id false).bind
        intro cache
        exact (ih _).bind fun _ => ⟨_, rfl⟩
      · exact ih desk

theorem settles_unenrolled (desk : Desk) (user : Id) (forums : List Forum) :
    desk.Settles (unenrolled user forums) (desk.rows.unenrolled user forums) := by
  induction forums generalizing desk with
  | nil => exact ⟨desk.cache, rfl⟩
  | cons forum rest ih =>
      rw [unenrolled, Rows.unenrolled]
      apply (settles_askRows desk (.unfollow user forum.id)).bind
      intro cache
      apply (settles_askRows _ (.clearOverrides user forum.id)).bind
      intro cache
      refine .bind ⟨_, rfl⟩ fun cache => ?_
      exact (ih _).bind fun _ => ⟨_, rfl⟩

/-- For a change it is enough that the sets of followers in the cache are right. -/
theorem settles_of_changedUser (hcoherent : desk.CoherentExcept Slot.IsChoices) (now : Instant)
    {call : Call} {user : Id} (hcall : call.changedUser = some user) :
    desk.Settles (call.program now) (call.outcome now desk.register desk.rows) := by
  cases call with
  | subscribe changed forum discussion userRequest =>
      exact (settles_change hcoherent now .subscribed changed id discussion userRequest).map _
  | unsubscribe changed forum discussion userRequest =>
      exact (settles_change hcoherent now .unsubscribed changed id discussion userRequest).map _
  | enrolled changed forums => exact (settles_enrolled desk changed forums).map _
  | unenrolled changed forums => exact (settles_unenrolled desk changed forums).map _
  | eraseUser changed => exact ⟨_, rfl⟩
  | isSubscribed | subscribers | discussionSubscribers | overridesOf | eraseForum | resetCache =>
      cases hcall

theorem settles_program (hcoherent : desk.Coherent) (howned : desk.rows.Owned owner)
    (now : Instant) {call : Call} (hrespects : call.Respects owner) :
    desk.Settles (call.program now) (call.outcome now desk.register desk.rows) := by
  have hfollowers := hcoherent.except Slot.IsChoices
  cases call with
  | isSubscribed user forum discussion =>
      refine ((looks_isSubscribed hcoherent howned user forum ?_).map _).settles
      rintro discussion rfl
      exact hrespects
  | subscribe | unsubscribe | enrolled | unenrolled | eraseUser =>
      exact settles_of_changedUser hfollowers now rfl
  | subscribers forum => exact ((looks_subscribers hcoherent forum).map _).settles
  | discussionSubscribers forum discussion =>
      exact ((looks_discussionSubscribers hcoherent forum discussion).map _).settles
  | overridesOf user forum => exact ((looks_overridesOf hcoherent user forum).map _).settles
  | eraseForum forum => exact ⟨_, rfl⟩
  | resetCache => exact ⟨_, rfl⟩

/-- A call on a coherent desk replies with its outcome, and leaves the rows of the outcome and a
coherent desk. -/
theorem run_program (hcoherent : desk.Coherent) (howned : desk.rows.Owned owner) (now : Instant)
    {call : Call} (hrespects : call.Respects owner) :
    ∃ cache, desk.run (call.program now) =
        (.ok (call.outcome now desk.register desk.rows).1,
          ⟨(call.outcome now desk.register desk.rows).2, desk.register, cache⟩) ∧
      Desk.Coherent ⟨(call.outcome now desk.register desk.rows).2, desk.register, cache⟩ ∧
      (call.outcome now desk.register desk.rows).2.Owned owner := by
  obtain ⟨cache, hrun⟩ := settles_program hcoherent howned now hrespects
  obtain ⟨-, -, hkept, hkeptOwned, -⟩ := run_call hcoherent howned now hrespects
  rw [hrun] at hkept hkeptOwned
  exact ⟨cache, hrun, hkept, hkeptOwned⟩

end DiscussionBoard.Subscription
