import DiscussionBoard.Proofs.Discipline
import DiscussionBoard.Proofs.Subscription.DiscussionChange

/-!
# Changes made again

All changes but those for one discussion make the same writes whatever is stored, and the writes of
one change go one way: followings come to hold, or come not to hold, and overrides go. So a change
that was made in part, and then in full, was made in full. A change for one discussion looks before
it writes, and finds nothing to do a second time.
-/

namespace DiscussionBoard.Subscription

/-! ### Writes that go one way -/

/-- A request that brings followings to one state only, and takes overrides away. -/
def RowRequest.Sets (following : Bool) : RowRequest → Prop
  | .follow _ _ => following = true
  | .unfollow _ _ | .eraseUser _ | .eraseForum _ => following = false
  | .clearOverrides _ _ => True
  | _ => False

section Sets

variable {following : Bool} {request other : RowRequest} {requests : List RowRequest}

theorem RowRequest.Sets.act_following (hrequest : request.Sets following) (user forum : Id) :
    ∃ covers : Bool, ∀ holds,
      request.act (.following user forum) holds = if covers then following else holds := by
  cases request with
  | follow changed place =>
      obtain rfl : following = true := hrequest
      exact ⟨decide ((user, forum) = (changed, place)), fun holds => by simp [act]⟩
  | unfollow changed place =>
      obtain rfl : following = false := hrequest
      exact ⟨decide ((user, forum) = (changed, place)), fun holds => by simp [act]⟩
  | eraseUser erased =>
      obtain rfl : following = false := hrequest
      exact ⟨decide (user = erased), fun holds => by simp [act]⟩
  | eraseForum erased =>
      obtain rfl : following = false := hrequest
      exact ⟨decide (forum = erased), fun holds => by simp [act]⟩
  | clearOverrides => exact ⟨false, fun _ => rfl⟩
  | follows | followersOf | overrideOf | putOverride | dropOverride | overridesOf | overridesFor =>
      exact hrequest.elim

theorem RowRequest.Sets.act_override (hrequest : request.Sets following) (user discussion : Id) :
    ∃ keep : Override → Bool, ∀ stored : Option Override,
      request.act (.override user discussion) stored = stored.filter keep := by
  cases request with
  | follow | unfollow => exact ⟨fun _ => true, fun stored => by cases stored <;> rfl⟩
  | clearOverrides changed forum =>
      refine ⟨fun override => !(user = changed && override.forumId = forum), fun stored => ?_⟩
      by_cases huser : user = changed <;> cases stored <;> simp [act, huser, Option.filter]
  | eraseUser erased =>
      refine ⟨fun _ => user ≠ erased, fun stored => ?_⟩
      by_cases huser : user = erased <;> cases stored <;> simp [act, huser, Option.filter]
  | eraseForum erased => exact ⟨fun override => override.forumId ≠ erased, fun _ => rfl⟩
  | follows | followersOf | overrideOf | putOverride | dropOverride | overridesOf | overridesFor =>
      exact hrequest.elim

namespace Rows

theorem perform_comm (hrequest : request.Sets following) (hother : other.Sets following)
    (rows : Rows) :
    (perform request (perform other rows).2).2 = (perform other (perform request rows).2).2 := by
  apply ext_entry
  intro key
  simp only [entry_perform]
  cases key with
  | following user forum =>
      obtain ⟨covers, hact⟩ := hrequest.act_following user forum
      obtain ⟨coversOther, hactOther⟩ := hother.act_following user forum
      rw [hact, hactOther, hactOther, hact]
      cases covers <;> cases coversOther <;> rfl
  | override user discussion =>
      obtain ⟨keep, hact⟩ := hrequest.act_override user discussion
      obtain ⟨keepOther, hactOther⟩ := hother.act_override user discussion
      rw [hact, hactOther, hactOther, hact, Option.filter_filter, Option.filter_filter]
      simp only [Bool.and_comm]

theorem perform_perform (hrequest : request.Sets following) (rows : Rows) :
    (perform request (perform request rows).2).2 = (perform request rows).2 := by
  apply ext_entry
  intro key
  simp only [entry_perform]
  cases key with
  | following user forum =>
      obtain ⟨covers, hact⟩ := hrequest.act_following user forum
      rw [hact, hact]
      cases covers <;> rfl
  | override user discussion =>
      obtain ⟨keep, hact⟩ := hrequest.act_override user discussion
      rw [hact, hact, Option.filter_filter]
      simp only [Bool.and_self]

/-- Makes requests one after the other. -/
def performAll (rows : Rows) : List RowRequest → Rows
  | [] => rows
  | request :: rest => (perform request rows).2.performAll rest

theorem performAll_append (rows : Rows) (first second : List RowRequest) :
    rows.performAll (first ++ second) = (rows.performAll first).performAll second := by
  induction first generalizing rows with
  | nil => rfl
  | cons request rest ih => exact ih _

/-- One of the writes made before all of them makes no difference. -/
theorem performAll_of_mem (hsets : ∀ request ∈ requests, request.Sets following)
    (hmem : request ∈ requests) (rows : Rows) :
    (perform request rows).2.performAll requests = rows.performAll requests := by
  induction requests generalizing rows with
  | nil => cases hmem
  | cons first rest ih =>
      obtain ⟨hfirst, hrest⟩ := List.forall_mem_cons.mp hsets
      rw [performAll, performAll]
      rcases List.mem_cons.mp hmem with rfl | hlater
      · rw [perform_perform hfirst]
      · rw [perform_comm hfirst (hrest request hlater), ih hrest hlater]

end Rows

end Sets

/-! ### The writes of a change -/

def forumWrites (wanted : Preference) (user forum : Id) (userRequest : Bool) : List RowRequest :=
  (match wanted with
  | .subscribed => .follow user forum
  | .unsubscribed => .unfollow user forum) ::
    if userRequest then [.clearOverrides user forum] else []

/-- Changes that make the same writes whatever is stored. -/
inductive Call.Writes : Call → List RowRequest → Prop
  | subscribe (user : Id) (forum : Forum) (userRequest : Bool) :
    Writes (.subscribe user forum none userRequest)
      (forumWrites .subscribed user forum.id userRequest)
  | unsubscribe (user : Id) (forum : Forum) (userRequest : Bool) :
    Writes (.unsubscribe user forum none userRequest)
      (forumWrites .unsubscribed user forum.id userRequest)
  | enrolled (user : Id) (forums : List Forum) :
    Writes (.enrolled user forums) (forums.flatMap fun forum =>
      if forum.subscriptionMode = .initial then forumWrites .subscribed user forum.id false else [])
  | unenrolled (user : Id) (forums : List Forum) :
    Writes (.unenrolled user forums) (forums.flatMap fun forum =>
      forumWrites .unsubscribed user forum.id true)
  | eraseUser (user : Id) : Writes (.eraseUser user) [.eraseUser user]
  | eraseForum (forum : Id) : Writes (.eraseForum forum) [.eraseForum forum]

theorem sets_forumWrites {wanted : Preference} {user forum : Id} {userRequest : Bool} :
    ∀ request ∈ forumWrites wanted user forum userRequest, request.Sets wanted.isSubscribed := by
  cases wanted <;> cases userRequest <;> simp [forumWrites, RowRequest.Sets, Preference.isSubscribed]

theorem Rows.snd_changeForum (rows : Rows) (wanted : Preference) (user forum : Id)
    (userRequest : Bool) :
    (rows.changeForum wanted user forum userRequest).2 =
      rows.performAll (forumWrites wanted user forum userRequest) := by
  cases wanted <;> cases userRequest <;> rfl

theorem Rows.snd_enrolled (rows : Rows) (user : Id) (forums : List Forum) :
    (rows.enrolled user forums).2 = rows.performAll (forums.flatMap fun forum =>
      if forum.subscriptionMode = .initial then forumWrites .subscribed user forum.id false
      else []) := by
  induction forums generalizing rows with
  | nil => rfl
  | cons forum rest ih =>
      rw [List.flatMap_cons, performAll_append, ← ih, enrolled]
      split
      · rfl
      · rfl

theorem Rows.snd_unenrolled (rows : Rows) (user : Id) (forums : List Forum) :
    (rows.unenrolled user forums).2 = rows.performAll (forums.flatMap fun forum =>
      forumWrites .unsubscribed user forum.id true) := by
  induction forums generalizing rows with
  | nil => rfl
  | cons forum rest ih =>
      rw [List.flatMap_cons, performAll_append, ← ih]
      rfl

/-- A program that makes no other writes than these. -/
def Request.WritesIn (writes : List RowRequest) : Request → Prop
  | .rows request => request ∈ writes
  | .register _ | .cache _ => True

theorem mayAsk_changeForum {writes : List RowRequest} (wanted : Preference) (user forum : Id)
    (userRequest : Bool)
    (hwrites : ∀ request ∈ forumWrites wanted user forum userRequest, request ∈ writes) :
    (changeForum wanted user forum userRequest).MayAsk (Request.WritesIn writes) := by
  obtain ⟨hfirst, hrest⟩ := List.forall_mem_cons.mp hwrites
  have hfinish : ∀ changed, (do
      if userRequest then clearOverrides user forum
      invalidate (.forum forum)
      pure changed : Program signature Bool).MayAsk (Request.WritesIn writes) := by
    intro changed
    cases userRequest with
    | false => exact ⟨trivial, fun _ => trivial⟩
    | true =>
        exact ⟨hrest _ List.mem_cons_self, fun _ => ⟨trivial, fun _ => ⟨trivial, fun _ => trivial⟩⟩⟩
  cases wanted with
  | subscribed => exact ⟨hfirst, hfinish⟩
  | unsubscribed => exact ⟨hfirst, hfinish⟩

theorem mayAsk_enrolled {writes : List RowRequest} (user : Id) (forums : List Forum)
    (hwrites : ∀ request ∈ forums.flatMap fun forum =>
      if forum.subscriptionMode = .initial then forumWrites .subscribed user forum.id false else [],
      request ∈ writes) :
    (enrolled user forums).MayAsk (Request.WritesIn writes) := by
  induction forums with
  | nil => trivial
  | cons forum rest ih =>
      rw [List.flatMap_cons, List.forall_mem_append] at hwrites
      rw [enrolled]
      split
      · rename_i hmode
        rw [if_pos hmode] at hwrites
        apply (mayAsk_changeForum .subscribed user forum.id false hwrites.1).bind
        intro added
        exact (ih hwrites.2).bind fun _ => trivial
      · exact ih hwrites.2

theorem mayAsk_unenrolled {writes : List RowRequest} (user : Id) (forums : List Forum)
    (hwrites : ∀ request ∈ forums.flatMap fun forum => forumWrites .unsubscribed user forum.id true,
      request ∈ writes) :
    (unenrolled user forums).MayAsk (Request.WritesIn writes) := by
  induction forums with
  | nil => trivial
  | cons forum rest ih =>
      rw [List.flatMap_cons, List.forall_mem_append] at hwrites
      obtain ⟨hunfollow, hclear⟩ := List.forall_mem_cons.mp hwrites.1
      refine ⟨hunfollow, fun unfollowed => ⟨hclear _ List.mem_cons_self, fun cleared => ?_⟩⟩
      exact ⟨trivial, fun _ => (ih hwrites.2).bind fun _ => trivial⟩

namespace Call.Writes

variable {call : Call} {writes : List RowRequest}

theorem sets (hcall : call.Writes writes) :
    ∃ following, ∀ request ∈ writes, request.Sets following := by
  cases hcall with
  | subscribe => exact ⟨_, sets_forumWrites⟩
  | unsubscribe => exact ⟨_, sets_forumWrites⟩
  | enrolled user forums =>
      refine ⟨Preference.subscribed.isSubscribed, fun request hrequest => ?_⟩
      obtain ⟨forum, -, hwritten⟩ := List.mem_flatMap.mp hrequest
      split at hwritten
      · exact sets_forumWrites request hwritten
      · cases hwritten
  | unenrolled user forums =>
      refine ⟨Preference.unsubscribed.isSubscribed, fun request hrequest => ?_⟩
      obtain ⟨forum, -, hwritten⟩ := List.mem_flatMap.mp hrequest
      exact sets_forumWrites request hwritten
  | eraseUser | eraseForum => exact ⟨false, by simp [RowRequest.Sets]⟩

theorem snd_outcome (hcall : call.Writes writes) (now : Instant) (register : Register)
    (rows : Rows) :
    (call.outcome now register rows).2 = rows.performAll writes := by
  cases hcall with
  | subscribe user forum userRequest =>
      exact rows.snd_changeForum .subscribed user forum.id userRequest
  | unsubscribe user forum userRequest =>
      exact rows.snd_changeForum .unsubscribed user forum.id userRequest
  | enrolled user forums => exact rows.snd_enrolled user forums
  | unenrolled user forums => exact rows.snd_unenrolled user forums
  | eraseUser | eraseForum => rfl

theorem mayAsk (hcall : call.Writes writes) (now : Instant) :
    (call.program now).MayAsk (Request.WritesIn writes) := by
  cases hcall with
  | subscribe user forum userRequest =>
      exact (mayAsk_changeForum .subscribed user forum.id userRequest fun _ h => h).map _
  | unsubscribe user forum userRequest =>
      exact (mayAsk_changeForum .unsubscribed user forum.id userRequest fun _ h => h).map _
  | enrolled user forums => exact (mayAsk_enrolled user forums fun _ h => h).map _
  | unenrolled user forums => exact (mayAsk_unenrolled user forums fun _ h => h).map _
  | eraseUser | eraseForum =>
      exact ⟨List.mem_cons_self, fun _ => ⟨trivial, fun _ => trivial⟩⟩

end Call.Writes

/-! ### A change for one discussion -/

/-- A change for one discussion leaves nothing for the same change to do. -/
theorem Rows.changeDiscussion_changeDiscussion (rows : Rows) (register : Register)
    (now later : Instant) (wanted : Preference) (user : Id) (forum : Forum) (discussion : Id) :
    (rows.changeDiscussion register now wanted user forum discussion).2.changeDiscussion register
        later wanted user forum discussion =
      (false, (rows.changeDiscussion register now wanted user forum discussion).2) := by
  by_cases hlevel : rows.forumLevel register user forum = wanted.isSubscribed
  · by_cases hstored : rows.preference user discussion = some wanted.opposite
    · rw [changeDiscussion_of_opposite hlevel hstored now]
      refine changeDiscussion_of_level ?_ ?_ later
      · exact hlevel
      · rw [preference_dropOverride_self]
        exact nofun
    · rw [changeDiscussion_of_level hlevel hstored now]
      exact changeDiscussion_of_level hlevel hstored later
  · by_cases hstored : rows.preference user discussion = some wanted
    · rw [changeDiscussion_of_stored hlevel hstored now]
      exact changeDiscussion_of_stored hlevel hstored later
    · rw [changeDiscussion_of_unstored hlevel hstored now]
      refine changeDiscussion_of_stored ?_ ?_ later
      · exact hlevel
      · exact preference_insertOverride_self ⟨user, forum.id, discussion, wanted, now⟩

end DiscussionBoard.Subscription
