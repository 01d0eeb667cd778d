import DiscussionBoard.Instant
import DiscussionBoard.Table

/-!
# Stored subscriptions

Two kinds of rows. A following says that a user follows a whole forum. An override is a user's own
choice for one discussion; it is stored under the user and the discussion and also records a forum.
Every change tells whether, or how often, it changed something.
-/

namespace DiscussionBoard.Subscription

inductive Preference
  | subscribed | unsubscribed
deriving DecidableEq, Inhabited

namespace Preference

def all : List Preference :=
  [subscribed, unsubscribed]

def name : Preference → String
  | subscribed => "subscribed"
  | unsubscribed => "unsubscribed"

def isSubscribed : Preference → Bool
  | subscribed => true
  | unsubscribed => false

def opposite : Preference → Preference
  | subscribed => unsubscribed
  | unsubscribed => subscribed

end Preference

structure Following where
  userId : Id
  forumId : Id
deriving DecidableEq

instance : Key Following where
  code following := Key.code (following.userId, following.forumId)
  code_inj := by
    rintro ⟨user, forum⟩ ⟨otherUser, otherForum⟩ h
    cases Key.code_inj h
    rfl

structure Override where
  userId : Id
  forumId : Id
  discussionId : Id
  preference : Preference
  updatedAt : Instant
deriving DecidableEq

/-- What an override is stored under. -/
def Override.key (override : Override) : Id × Id :=
  (override.userId, override.discussionId)

structure Rows where
  followings : KeySet Following
  overrides : Table (Id × Id) Override
  keyed : ∀ {key override}, overrides.get? key = some override → override.key = key

namespace Rows

def empty : Rows :=
  ⟨.empty, .empty, by simp⟩

instance : Inhabited Rows := ⟨empty⟩

def follows (rows : Rows) (user forum : Id) : Bool :=
  rows.followings.contains ⟨user, forum⟩

def followersOf (rows : Rows) (forum : Id) : List Id :=
  (rows.followings.toList.filter fun following => following.forumId = forum).map (·.userId)

def overrideOf (rows : Rows) (user discussion : Id) : Option Override :=
  rows.overrides.get? (user, discussion)

/-- The user's choices recorded under a forum, by discussion. -/
def overridesOf (rows : Rows) (user forum : Id) : List (Id × Preference) :=
  (rows.overrides.values.filter fun override =>
    override.userId = user && override.forumId = forum).map fun override =>
      (override.discussionId, override.preference)

/-- The choices made for one discussion, by user. -/
def overridesFor (rows : Rows) (discussion : Id) : List (Id × Preference) :=
  (rows.overrides.values.filter fun override => override.discussionId = discussion).map
    fun override => (override.userId, override.preference)

def overridesBy (rows : Rows) (user : Id) : List Override :=
  rows.overrides.values.filter fun override => override.userId = user

def follow (rows : Rows) (user forum : Id) : Bool × Rows :=
  (!rows.follows user forum, { rows with followings := rows.followings.insert ⟨user, forum⟩ () })

def unfollow (rows : Rows) (user forum : Id) : Bool × Rows :=
  (rows.follows user forum, { rows with followings := rows.followings.erase ⟨user, forum⟩ })

/-- Keeps the overrides that pass a test. -/
def keepOverrides (rows : Rows) (keep : Override → Bool) : Rows where
  followings := rows.followings
  overrides := rows.overrides.filter fun _ override => keep override
  keyed {key override} hget := by
    rw [Table.get?_filter, Option.filter_eq_some_iff] at hget
    exact rows.keyed hget.1

def keepFollowings (rows : Rows) (keep : Following → Bool) : Rows :=
  { rows with followings := rows.followings.filter fun following _ => keep following }

def insertOverride (rows : Rows) (override : Override) : Rows where
  followings := rows.followings
  overrides := rows.overrides.insert override.key override
  keyed {key found} hget := by
    by_cases hkey : key = override.key
    · subst hkey
      rw [Table.get?_insert_self] at hget
      cases hget
      rfl
    · rw [Table.get?_insert_of_ne _ _ hkey] at hget
      exact rows.keyed hget

/-- Stores a choice, unless the same choice is stored already, which then keeps its forum and
time. -/
def putOverride (rows : Rows) (override : Override) : Bool × Rows :=
  if (rows.overrideOf override.userId override.discussionId).any fun stored =>
    stored.preference = override.preference
  then (false, rows)
  else (true, rows.insertOverride override)

def dropOverride (rows : Rows) (user discussion : Id) : Bool × Rows :=
  ((rows.overrideOf user discussion).isSome,
    rows.keepOverrides fun override => override.key ≠ (user, discussion))

/-- How many rows went, and the rows that are left. -/
def removed (rows : Rows) (left : Rows) : Nat × Rows :=
  (rows.followings.size - left.followings.size + (rows.overrides.size - left.overrides.size), left)

def clearOverrides (rows : Rows) (user forum : Id) : Nat × Rows :=
  rows.removed
    (rows.keepOverrides fun override => !(override.userId = user && override.forumId = forum))

def eraseUser (rows : Rows) (user : Id) : Nat × Rows :=
  rows.removed ((rows.keepFollowings fun following => following.userId ≠ user).keepOverrides
    fun override => override.userId ≠ user)

def eraseForum (rows : Rows) (forum : Id) : Nat × Rows :=
  rows.removed ((rows.keepFollowings fun following => following.forumId ≠ forum).keepOverrides
    fun override => override.forumId ≠ forum)

end Rows

end DiscussionBoard.Subscription
