import DiscussionBoard.Forum
import DiscussionBoard.Subscription.Desk

/-!
# Subscription look-ups

Who is subscribed to what. The mode of the forum decides how much of the stored rows counts: a
forced forum follows the permission alone, a closed one has no subscribers, and otherwise the
following counts and an override counts more. Overrides left behind by a change of mode stay stored
and are not looked at.
-/

namespace DiscussionBoard.Subscription

/-- The followers of a forum, from the cache or else from storage, then kept. -/
def followersOf (forum : Id) : Program signature (KeySet Id) := do
  match ← askCache (.followersOf forum) with
  | some hit => pure hit
  | none =>
    let ticket ← askCache .generation
    let stored ← askRows (.followersOf forum)
    let users := KeySet.ofList stored
    askCache (.keepFollowers forum users ticket)
    pure users

/-- A user's choices in a forum, by discussion, from the cache or else from storage, then kept. -/
def overridesOf (user forum : Id) : Program signature (Table Id Preference) := do
  match ← askCache (.overridesOf user forum) with
  | some hit => pure hit
  | none =>
    let ticket ← askCache .generation
    let stored ← askRows (.overridesOf user forum)
    let overrides := Table.ofList stored
    askCache (.keepOverrides user forum overrides ticket)
    pure overrides

/-- Whether a user is subscribed to a forum as a whole. -/
def forumLevel (user : Id) (forum : Forum) : Program signature Bool :=
  match forum.subscriptionMode with
  | .forced => askRegister (.allows user forum.id)
  | .disallowed => pure false
  | .choose | .initial => do
    if ← askCache .isEnabled then
      let users ← followersOf forum.id
      pure (users.contains user)
    else
      askRows (.follows user forum.id)

/-- The choice read straight from storage. -/
def storedPreference (user discussion : Id) : Program signature (Option Preference) := do
  let override ← askRows (.overrideOf user discussion)
  pure (override.map (·.preference))

/-- The choice for one discussion, out of all of the user's choices in the forum if those are
cached. -/
def preference (user forum discussion : Id) : Program signature (Option Preference) := do
  if ← askCache .isEnabled then
    let overrides ← overridesOf user forum
    pure (overrides.get? discussion)
  else
    storedPreference user discussion

/-- Whether a user is subscribed to a forum, or to one discussion of it. -/
def isSubscribed (user : Id) (forum : Forum) (discussion : Option Id) : Program signature Bool := do
  let inherited ← forumLevel user forum
  match discussion with
  | some discussion =>
    if forum.subscriptionMode.isOptional then
      let own ← preference user forum.id discussion
      pure ((own.map (·.isSubscribed)).getD inherited)
    else pure inherited
  | none => pure inherited

/-- The users of a list who may be subscribed to a forum by force. -/
def allowedAmong (forum : Id) : List Id → Program signature (List Id)
  | [] => pure []
  | user :: rest => do
    let allowed ← askRegister (.allows user forum)
    let others ← allowedAmong forum rest
    pure (if allowed then user :: others else others)

def ascending (users : List Id) : List Id :=
  users.mergeSort fun a b => a ≤ b

/-- The users subscribed to a forum as a whole, in ascending order. -/
def subscribers (forum : Forum) : Program signature (List Id) :=
  match forum.subscriptionMode with
  | .disallowed => pure []
  | .forced => do
    let enrolled ← askRegister (.enrolled forum.courseId)
    let users ← allowedAmong forum.id enrolled
    pure (ascending users)
  | .choose | .initial => do
    let users ← followersOf forum.id
    pure users.toList

/-- Adds or removes one user as the user chose. -/
def applyPreference (users : KeySet Id) (choice : Id × Preference) : KeySet Id :=
  match choice.2 with
  | .subscribed => users.insert choice.1 ()
  | .unsubscribed => users.erase choice.1

/-- The users to be notified of a post in a discussion, in ascending order. -/
def discussionSubscribers (forum : Forum) (discussion : Id) : Program signature (List Id) :=
  if forum.subscriptionMode.isOptional then do
    let users ← followersOf forum.id
    let choices ← askRows (.overridesFor discussion)
    pure (choices.foldl applyPreference users).toList
  else subscribers forum

end DiscussionBoard.Subscription
