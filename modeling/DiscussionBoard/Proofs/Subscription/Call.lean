import DiscussionBoard.Subscription.Change

/-!
# Calls

The operations on subscriptions as data, with one type for all they reply, so that sequences and
interleavings of calls can be spoken of.
-/

namespace DiscussionBoard.Subscription

inductive Reply
  | switch (on : Bool)
  | count (number : Nat)
  | users (users : List Id)
  | choices (choices : Table Id Preference)
  | nothing
deriving DecidableEq

inductive Call
  | isSubscribed (user : Id) (forum : Forum) (discussion : Option Id)
  | subscribe (user : Id) (forum : Forum) (discussion : Option Id) (userRequest : Bool)
  | unsubscribe (user : Id) (forum : Forum) (discussion : Option Id) (userRequest : Bool)
  | subscribers (forum : Forum)
  | discussionSubscribers (forum : Forum) (discussion : Id)
  | overridesOf (user forum : Id)
  | enrolled (user : Id) (forums : List Forum)
  | unenrolled (user : Id) (forums : List Forum)
  | eraseUser (user : Id)
  | eraseForum (forum : Id)
  | resetCache
deriving DecidableEq

/-- Runs a program on a desk, where every request succeeds. -/
def Desk.run {α : Type} (desk : Desk) (program : Program signature α) : Except Fault α × Desk :=
  Program.run Desk.perform program desk

section Run

variable {α β : Type}

theorem run_pure (desk : Desk) (value : α) : desk.run (pure value) = (.ok value, desk) := rfl

theorem run_bind_of_ok {desk middle : Desk} {program : Program signature α} {value : α}
    (hrun : desk.run program = (.ok value, middle)) (rest : α → Program signature β) :
    desk.run (program >>= rest) = middle.run (rest value) := by
  refine (Program.run_bind _ program rest desk).trans ?_
  rw [Desk.run] at hrun
  rw [hrun, Desk.run]

theorem run_map_of_ok {desk middle : Desk} {program : Program signature α} {value : α}
    (hrun : desk.run program = (.ok value, middle)) (f : α → β) :
    desk.run (f <$> program) = (.ok (f value), middle) := by
  rw [map_eq_pure_bind, run_bind_of_ok hrun, run_pure]

theorem run_askRows (desk : Desk) (request : RowRequest) :
    desk.run (askRows request) =
      (.ok (Rows.perform request desk.rows).1,
        { desk with rows := (Rows.perform request desk.rows).2 }) := rfl

theorem run_askRegister (desk : Desk) (request : RegisterRequest) :
    desk.run (askRegister request) = (.ok (answerFromRegister desk.register request), desk) := rfl

theorem run_askCache (desk : Desk) (request : CacheRequest) :
    desk.run (askCache request) =
      (.ok (Cache.perform request desk.cache).1,
        { desk with cache := (Cache.perform request desk.cache).2 }) := rfl

end Run

/-! ### Programs in parts -/

theorem forumLevel_of_isOptional {forum : Forum}
    (hmode : forum.subscriptionMode.isOptional = true) (user : Id) :
    forumLevel user forum = (do
      if ← askCache .isEnabled then
        let users ← followersOf forum.id
        pure (users.contains user)
      else
        askRows (.follows user forum.id)) := by
  unfold forumLevel
  cases hforum : forum.subscriptionMode <;> simp_all [SubscriptionMode.isOptional]

theorem subscribers_of_isOptional {forum : Forum}
    (hmode : forum.subscriptionMode.isOptional = true) :
    subscribers forum = (do
      let users ← followersOf forum.id
      pure users.toList) := by
  unfold subscribers
  cases hforum : forum.subscriptionMode <;> simp_all [SubscriptionMode.isOptional]

namespace Call

/-- What a call does, where `now` is the time it stamps on an override that it writes. -/
def program (now : Instant) : Call → Program signature Reply
  | isSubscribed user forum discussion =>
    .switch <$> Subscription.isSubscribed user forum discussion
  | subscribe user forum discussion userRequest =>
    .switch <$> Subscription.subscribe now user forum discussion userRequest
  | unsubscribe user forum discussion userRequest =>
    .switch <$> Subscription.unsubscribe now user forum discussion userRequest
  | subscribers forum => .users <$> Subscription.subscribers forum
  | discussionSubscribers forum discussion =>
    .users <$> Subscription.discussionSubscribers forum discussion
  | overridesOf user forum => .choices <$> Subscription.overridesOf user forum
  | enrolled user forums => .count <$> Subscription.enrolled user forums
  | unenrolled user forums => .count <$> Subscription.unenrolled user forums
  | eraseUser user => .count <$> Subscription.eraseUser user
  | eraseForum forum => .count <$> Subscription.eraseForum forum
  | resetCache => (fun _ => .nothing) <$> Subscription.resetCache

/-- A discussion is only used with the forum that owns it. -/
def Respects (owner : Id → Id) : Call → Prop
  | isSubscribed _ forum (some discussion) | subscribe _ forum (some discussion) _
  | unsubscribe _ forum (some discussion) _ | discussionSubscribers forum discussion =>
    owner discussion = forum.id
  | _ => True

/-- The user whose rows a call changes, if it changes the rows of one user only. -/
def changedUser : Call → Option Id
  | subscribe user _ _ _ | unsubscribe user _ _ _ | enrolled user _ | unenrolled user _
  | eraseUser user => some user
  | _ => none

/-- The user and the forum of a change of one subscription. -/
def changedPlace : Call → Option (Id × Id)
  | subscribe user forum _ _ | unsubscribe user forum _ _ => some (user, forum.id)
  | _ => none

/-- The forum that a look-up of subscriptions or subscribers is about. -/
def lookedUp : Call → Option Forum
  | isSubscribed _ forum _ | subscribers forum | discussionSubscribers forum _ => some forum
  | _ => none

end Call

end DiscussionBoard.Subscription
