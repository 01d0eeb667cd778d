import DiscussionBoard.Subscription.Rows

/-!
# The cache of look-ups

Snapshots of stored rows: the followers of a forum, and a user's choices in a forum. A reader takes
the generation as a ticket before reading storage and hands it back with what it read; every
clearing moves the generation on, so a snapshot read before a clearing is never kept after it.
-/

namespace DiscussionBoard.Subscription

/-- What a clearing covers. -/
inductive Scope
  /-- The followers of one forum and every user's choices in it. -/
  | forum (forum : Id)
  /-- One user's choices in one forum. -/
  | userForum (user forum : Id)
  /-- One user's choices everywhere, and the followers of all forums. -/
  | user (user : Id)
deriving DecidableEq

namespace Scope

def coversFollowers : Scope → Id → Bool
  | .forum covered, key => covered = key
  | .userForum _ _, _ => false
  | .user _, _ => true

/-- Keys are pairs of a user and a forum. -/
def coversOverrides : Scope → Id × Id → Bool
  | .forum covered, key => covered = key.2
  | .userForum coveredUser coveredForum, key => (coveredUser, coveredForum) = key
  | .user covered, key => covered = key.1

end Scope

structure Cache where
  enabled : Bool
  generation : UInt64 := 0
  followers : Table Id (KeySet Id) := .empty
  overrides : Table (Id × Id) (Table Id Preference) := .empty
deriving DecidableEq

namespace Cache

instance : Inhabited Cache := ⟨{ enabled := true }⟩

def followersOf (cache : Cache) (forum : Id) : Option (KeySet Id) :=
  cache.followers.get? forum

def overridesOf (cache : Cache) (user forum : Id) : Option (Table Id Preference) :=
  cache.overrides.get? (user, forum)

/-- Whether a snapshot read under a ticket may be kept. -/
def accepts (cache : Cache) (ticket : UInt64) : Bool :=
  cache.enabled && cache.generation = ticket

def keepFollowers (cache : Cache) (forum : Id) (users : KeySet Id) (ticket : UInt64) : Cache :=
  if cache.accepts ticket then { cache with followers := cache.followers.insert forum users }
  else cache

def keepOverrides (cache : Cache) (user forum : Id) (overrides : Table Id Preference)
    (ticket : UInt64) : Cache :=
  if cache.accepts ticket then
    { cache with overrides := cache.overrides.insert (user, forum) overrides }
  else cache

def invalidate (cache : Cache) (scope : Scope) : Cache where
  enabled := cache.enabled
  generation := cache.generation + 1
  followers := cache.followers.filter fun key _ => !scope.coversFollowers key
  overrides := cache.overrides.filter fun key _ => !scope.coversOverrides key

def reset (cache : Cache) : Cache where
  enabled := cache.enabled
  generation := cache.generation + 1

theorem followersOf_keepFollowers (cache : Cache) (forum key : Id) (users : KeySet Id)
    (ticket : UInt64) :
    (cache.keepFollowers forum users ticket).followersOf key =
      if cache.accepts ticket ∧ key = forum then some users else cache.followersOf key := by
  unfold keepFollowers
  by_cases hticket : cache.accepts ticket
  · by_cases hkey : key = forum
    · simp [hticket, hkey, followersOf]
    · simp [hticket, hkey, followersOf, Table.get?_insert_of_ne _ _ hkey]
  · simp [hticket]

theorem overridesOf_keepOverrides (cache : Cache) (user forum keyUser keyForum : Id)
    (overrides : Table Id Preference) (ticket : UInt64) :
    (cache.keepOverrides user forum overrides ticket).overridesOf keyUser keyForum =
      if cache.accepts ticket ∧ (keyUser, keyForum) = (user, forum) then some overrides
      else cache.overridesOf keyUser keyForum := by
  unfold keepOverrides
  by_cases hticket : cache.accepts ticket
  · by_cases hkey : (keyUser, keyForum) = (user, forum)
    · simp [hticket, hkey, overridesOf]
    · simp [hticket, hkey, overridesOf, Table.get?_insert_of_ne _ _ hkey]
  · simp [hticket]

theorem followersOf_invalidate (cache : Cache) (scope : Scope) (key : Id) :
    (cache.invalidate scope).followersOf key =
      if scope.coversFollowers key then none else cache.followersOf key := by
  simp only [followersOf, invalidate, Table.get?_filter]
  cases scope.coversFollowers key <;> cases cache.followers.get? key <;> simp

theorem overridesOf_invalidate (cache : Cache) (scope : Scope) (user forum : Id) :
    (cache.invalidate scope).overridesOf user forum =
      if scope.coversOverrides (user, forum) then none else cache.overridesOf user forum := by
  simp only [overridesOf, invalidate, Table.get?_filter]
  cases scope.coversOverrides (user, forum) <;> cases cache.overrides.get? (user, forum) <;> simp

end Cache

end DiscussionBoard.Subscription
