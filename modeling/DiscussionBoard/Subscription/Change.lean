import DiscussionBoard.Subscription.Lookup

/-!
# Changing subscriptions

Users subscribe to a forum or to single discussions; enrolment and erasure change rows in bulk.
Every change clears what it made out of date in the cache after its last write.
-/

namespace DiscussionBoard.Subscription

def invalidate (scope : Scope) : Program signature Unit :=
  askCache (.invalidate scope)

/-- Removes all of a user's choices in a forum. -/
def clearOverrides (user forum : Id) : Program signature Unit := do
  let _ ← askRows (.clearOverrides user forum)
  invalidate (.userForum user forum)

/-- Adds or removes the following. A change on the user's own request also clears the user's choices
in the forum. -/
def changeForum (wanted : Preference) (user forum : Id) (userRequest : Bool) :
    Program signature Bool := do
  let changed ← match wanted with
    | .subscribed => askRows (.follow user forum)
    | .unsubscribed => askRows (.unfollow user forum)
  if userRequest then clearOverrides user forum
  invalidate (.forum forum)
  pure changed

/-- The one write of a change to a discussion, by the forum level and the stored choice: an override
that the forum level makes superfluous is dropped, and one is written only where the forum level
differs. -/
def settleDiscussion (now : Instant) (wanted : Preference) (user forum discussion : Id)
    (inherited : Bool) (existing : Option Preference) : Program signature Bool :=
  if inherited = wanted.isSubscribed then
    if existing = some wanted.opposite then askRows (.dropOverride user discussion)
    else pure false
  else if existing = some wanted then pure false
  else askRows (.putOverride ⟨user, forum, discussion, wanted, now⟩)

/-- Makes the choice for one discussion hold. -/
def changeDiscussion (now : Instant) (wanted : Preference) (user : Id) (forum : Forum)
    (discussion : Id) : Program signature Bool := do
  let inherited ← forumLevel user forum
  let existing ← storedPreference user discussion
  let changed ← settleDiscussion now wanted user forum.id discussion inherited existing
  invalidate (.userForum user forum.id)
  pure changed

/-- Changes the subscription to a forum, or to one discussion of it, and tells whether anything
changed. -/
def change (now : Instant) (wanted : Preference) (user : Id) (forum : Forum)
    (discussion : Option Id) (userRequest : Bool) : Program signature Bool :=
  match discussion with
  | none => changeForum wanted user forum.id userRequest
  | some discussion => changeDiscussion now wanted user forum discussion

def subscribe (now : Instant) : (user : Id) → (forum : Forum) → (discussion : Option Id) →
    (userRequest : Bool) → Program signature Bool :=
  change now .subscribed

def unsubscribe (now : Instant) : (user : Id) → (forum : Forum) → (discussion : Option Id) →
    (userRequest : Bool) → Program signature Bool :=
  change now .unsubscribed

/-- Subscribes an enrolled user to the forums that start subscribed, and counts the new
followings. -/
def enrolled (user : Id) : List Forum → Program signature Nat
  | [] => pure 0
  | forum :: rest =>
    if forum.subscriptionMode = .initial then do
      let added ← changeForum .subscribed user forum.id false
      let others ← enrolled user rest
      pure (added.toNat + others)
    else enrolled user rest

/-- Removes a user's rows in the given forums, and counts them. -/
def unenrolled (user : Id) : List Forum → Program signature Nat
  | [] => pure 0
  | forum :: rest => do
    let unfollowed ← askRows (.unfollow user forum.id)
    let cleared ← askRows (.clearOverrides user forum.id)
    invalidate (.forum forum.id)
    let others ← unenrolled user rest
    pure (unfollowed.toNat + cleared + others)

/-- Removes all rows of one user, and counts them. -/
def eraseUser (user : Id) : Program signature Nat := do
  let removed ← askRows (.eraseUser user)
  invalidate (.user user)
  pure removed

/-- Removes all rows recorded under one forum, and counts them. -/
def eraseForum (forum : Id) : Program signature Nat := do
  let removed ← askRows (.eraseForum forum)
  invalidate (.forum forum)
  pure removed

def resetCache : Program signature Unit :=
  askCache .reset

end DiscussionBoard.Subscription
