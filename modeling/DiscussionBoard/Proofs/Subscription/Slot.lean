import DiscussionBoard.Proofs.Subscription.Stored

/-!
# Slots

What is read from storage, and cached, as one: the followers of a forum, or a user's choices in a
forum. Each discussion is owned by one forum, and as long as overrides are stored under the owner of
their discussion, a change of the rows shows in the slots that it touches and in no other.
-/

namespace DiscussionBoard.Subscription

inductive Slot
  | followers (forum : Id)
  | choices (user forum : Id)
deriving DecidableEq

abbrev Slot.Value : Slot → Type
  | followers _ => KeySet Id
  | choices _ _ => Table Id Preference

def Rows.at (rows : Rows) : (slot : Slot) → slot.Value
  | .followers forum => KeySet.ofList (rows.followersOf forum)
  | .choices user forum => Table.ofList (rows.overridesOf user forum)

def Cache.at? (cache : Cache) : (slot : Slot) → Option slot.Value
  | .followers forum => cache.followersOf forum
  | .choices user forum => cache.overridesOf user forum

def Scope.covers (scope : Scope) : Slot → Bool
  | .followers key => scope.coversFollowers key
  | .choices keyUser keyForum => scope.coversOverrides (keyUser, keyForum)

/-- The slots that a request to storage may change, where `owner` tells the forum of a
discussion. -/
def RowRequest.Touches (owner : Id → Id) : RowRequest → Slot → Prop
  | .follow _ changed, .followers forum | .unfollow _ changed, .followers forum => changed = forum
  | .putOverride override, .choices user forum => override.userId = user ∧ override.forumId = forum
  | .dropOverride changed discussion, .choices user forum => changed = user ∧ owner discussion = forum
  | .clearOverrides changedUser changedForum, .choices user forum =>
    changedUser = user ∧ changedForum = forum
  | .eraseUser _, .followers _ => True
  | .eraseUser erased, .choices user _ => erased = user
  | .eraseForum erased, .followers forum | .eraseForum erased, .choices _ forum => erased = forum
  | _, _ => False

def Request.Touches (owner : Id → Id) : Request → Slot → Prop
  | .rows request, slot => request.Touches owner slot
  | _, _ => False

def Request.isClearing : Request → Bool
  | .cache (.invalidate _) | .cache .reset => true
  | _ => false

/-- The slots that a request clears in the cache. -/
def Request.clears : Request → Slot → Bool
  | .cache (.invalidate scope), slot => scope.covers slot
  | .cache .reset, _ => true
  | _, _ => false

theorem Request.clears_of_not_isClearing {request : Request} (h : request.isClearing = false)
    (slot : Slot) : request.clears slot = false := by
  cases request with
  | rows | register => rfl
  | cache request => cases request <;> first | rfl | cases h

/-- A slot with a value, as read from storage or found in the cache. -/
abbrev Reading := (slot : Slot) × slot.Value

/-- New overrides are stored under the owner of their discussion. -/
def RowRequest.Respects (owner : Id → Id) : RowRequest → Prop
  | .putOverride override => override.forumId = owner override.discussionId
  | _ => True

def Request.Respects (owner : Id → Id) : Request → Prop
  | .rows request => request.Respects owner
  | _ => True

section Touches

variable {owner : Id → Id} {user forum discussion : Id} {slot : Slot}

@[simp]
theorem touches_follow :
    (RowRequest.follow user forum).Touches owner slot ↔ slot = .followers forum := by
  cases slot <;> simp [RowRequest.Touches, eq_comm]

@[simp]
theorem touches_unfollow :
    (RowRequest.unfollow user forum).Touches owner slot ↔ slot = .followers forum := by
  cases slot <;> simp [RowRequest.Touches, eq_comm]

@[simp]
theorem touches_clearOverrides :
    (RowRequest.clearOverrides user forum).Touches owner slot ↔ slot = .choices user forum := by
  cases slot <;> simp [RowRequest.Touches, eq_comm]

@[simp]
theorem touches_dropOverride :
    (RowRequest.dropOverride user discussion).Touches owner slot ↔
      slot = .choices user (owner discussion) := by
  cases slot <;> simp [RowRequest.Touches, eq_comm]

@[simp]
theorem touches_putOverride {override : Override} :
    (RowRequest.putOverride override).Touches owner slot ↔
      slot = .choices override.userId override.forumId := by
  cases slot <;> simp [RowRequest.Touches, eq_comm]

@[simp]
theorem touches_eraseUser :
    (RowRequest.eraseUser user).Touches owner slot ↔ (Scope.user user).covers slot = true := by
  cases slot <;> simp [RowRequest.Touches, Scope.covers, Scope.coversFollowers, Scope.coversOverrides]

@[simp]
theorem touches_eraseForum :
    (RowRequest.eraseForum forum).Touches owner slot ↔ (Scope.forum forum).covers slot = true := by
  cases slot <;> simp [RowRequest.Touches, Scope.covers, Scope.coversFollowers, Scope.coversOverrides]

@[simp]
theorem covers_forum_followers : (Scope.forum forum).covers (.followers forum) = true := by
  simp [Scope.covers, Scope.coversFollowers]

@[simp]
theorem covers_forum_choices : (Scope.forum forum).covers (.choices user forum) = true := by
  simp [Scope.covers, Scope.coversOverrides]

@[simp]
theorem covers_userForum_choices :
    (Scope.userForum user forum).covers (.choices user forum) = true := by
  simp [Scope.covers, Scope.coversOverrides]

end Touches

/-! ### Slots of the cache -/

namespace Cache

variable {cache : Cache} {slot : Slot} {value : slot.Value}

theorem at?_invalidate {scope : Scope} :
    (cache.invalidate scope).at? slot = some value ↔
      scope.covers slot = false ∧ cache.at? slot = some value := by
  cases slot with
  | followers forum =>
      simp only [at?, Scope.covers, followersOf_invalidate]
      cases scope.coversFollowers forum <;> simp
  | choices user forum =>
      simp only [at?, Scope.covers, overridesOf_invalidate]
      cases scope.coversOverrides (user, forum) <;> simp

theorem at?_reset : cache.reset.at? slot = none := by
  cases slot <;> rfl

/-- Keeping a snapshot changes one slot, and only under the present ticket. -/
theorem at?_keepFollowers {forum : Id} {users : KeySet Id} {ticket : UInt64}
    (h : (cache.keepFollowers forum users ticket).at? slot = some value) :
    cache.accepts ticket = true ∧ (⟨slot, value⟩ : Reading) = ⟨.followers forum, users⟩ ∨
      cache.at? slot = some value := by
  cases slot with
  | followers key =>
      rw [at?, followersOf_keepFollowers] at h
      split at h
      · rename_i hkept
        obtain ⟨haccepts, rfl⟩ := hkept
        cases h
        exact .inl ⟨haccepts, rfl⟩
      · exact .inr h
  | choices user forum =>
      rw [at?, keepFollowers] at h
      split at h <;> exact .inr h

theorem at?_keepOverrides {user forum : Id} {choices : Table Id Preference} {ticket : UInt64}
    (h : (cache.keepOverrides user forum choices ticket).at? slot = some value) :
    cache.accepts ticket = true ∧ (⟨slot, value⟩ : Reading) = ⟨.choices user forum, choices⟩ ∨
      cache.at? slot = some value := by
  cases slot with
  | followers key =>
      rw [at?, keepOverrides] at h
      split at h <;> exact .inr h
  | choices keyUser keyForum =>
      rw [at?, overridesOf_keepOverrides] at h
      split at h
      · rename_i hkept
        obtain ⟨haccepts, hkey⟩ := hkept
        cases hkey
        cases h
        exact .inl ⟨haccepts, rfl⟩
      · exact .inr h

theorem enabled_perform (request : CacheRequest) (cache : Cache) :
    (perform request cache).2.enabled = cache.enabled := by
  cases request with
  | keepFollowers forum users ticket =>
      rw [perform, keepFollowers]
      split <;> rfl
  | keepOverrides user forum choices ticket =>
      rw [perform, keepOverrides]
      split <;> rfl
  | isEnabled | generation | followersOf | overridesOf | invalidate | reset => rfl

theorem generation_perform (request : CacheRequest) (cache : Cache) :
    (perform request cache).2.generation =
      if (Request.cache request).isClearing then cache.generation + 1 else cache.generation := by
  cases request with
  | keepFollowers forum users ticket =>
      rw [perform, keepFollowers]
      split <;> rfl
  | keepOverrides user forum choices ticket =>
      rw [perform, keepOverrides]
      split <;> rfl
  | isEnabled | generation | followersOf | overridesOf | invalidate | reset => rfl

end Cache

/-! ### Slots of rows -/

namespace Rows

variable {rows other : Rows} {owner : Id → Id} {user forum discussion : Id}

theorem contains_followers :
    Table.contains (rows.at (.followers forum)) user = rows.follows user forum := by
  rw [Bool.eq_iff_iff, Rows.at, KeySet.contains_ofList, mem_followersOf_iff]

theorem get?_choices :
    Table.get? (rows.at (.choices user forum)) discussion =
      ((rows.overrideOf user discussion).filter (·.forumId = forum)).map (·.preference) := by
  apply Option.ext
  intro preference
  rw [Rows.at, Table.get?_ofList_eq_some_iff (rows.nodup_overridesOf user forum),
    mem_overridesOf_iff, Option.map_eq_some_iff]
  simp only [Option.filter_eq_some_iff, decide_eq_true_eq, and_assoc]

theorem followers_congr (h : ∀ user, rows.follows user forum = true ↔ other.follows user forum = true) :
    rows.at (.followers forum) = other.at (.followers forum) := by
  apply KeySet.ext
  intro user
  rw [contains_followers, contains_followers]
  exact h user

theorem choices_congr (h : ∀ discussion,
      (rows.overrideOf user discussion).filter (·.forumId = forum) =
        (other.overrideOf user discussion).filter (·.forumId = forum)) :
    rows.at (.choices user forum) = other.at (.choices user forum) := by
  apply Table.ext
  intro discussion
  rw [get?_choices, get?_choices, h]

/-- Overrides are stored under the owner of their discussion. -/
def Owned (owner : Id → Id) (rows : Rows) : Prop :=
  ∀ user discussion override, rows.overrideOf user discussion = some override →
    override.forumId = owner discussion

theorem owned_empty : empty.Owned owner := by
  intro user discussion override h
  cases h

theorem Owned.keepOverrides (howned : rows.Owned owner) (keep : Override → Bool) :
    (rows.keepOverrides keep).Owned owner := by
  intro user discussion override h
  rw [overrideOf_keepOverrides, Option.filter_eq_some_iff] at h
  exact howned user discussion override h.1

theorem Owned.keepFollowings (howned : rows.Owned owner) (keep : Following → Bool) :
    (rows.keepFollowings keep).Owned owner := howned

theorem Owned.putOverride (howned : rows.Owned owner) {override : Override}
    (hforum : override.forumId = owner override.discussionId) :
    (rows.putOverride override).2.Owned owner := by
  rw [Rows.putOverride]
  split
  · exact howned
  · intro user discussion found h
    by_cases hkey : (user, discussion) = override.key
    · obtain ⟨rfl, rfl⟩ := Prod.mk.inj hkey
      rw [overrideOf_insertOverride_self] at h
      cases h
      exact hforum
    · rw [overrideOf_insertOverride_of_ne hkey] at h
      exact howned user discussion found h

theorem Owned.perform (howned : rows.Owned owner) {request : RowRequest}
    (hrespects : request.Respects owner) : (perform request rows).2.Owned owner := by
  cases request with
  | follow user forum => exact howned
  | unfollow user forum => exact howned
  | putOverride override => exact howned.putOverride hrespects
  | dropOverride user discussion => exact howned.keepOverrides _
  | clearOverrides user forum => exact howned.keepOverrides _
  | eraseUser user => exact (howned.keepFollowings _).keepOverrides _
  | eraseForum forum => exact (howned.keepFollowings _).keepOverrides _
  | follows | followersOf | overrideOf | overridesOf | overridesFor => exact howned

theorem choices_keepOverrides {keep : Override → Bool}
    (hkeep : ∀ override discussion, rows.overrideOf user discussion = some override →
      override.forumId = forum → keep override = true) :
    (rows.keepOverrides keep).at (.choices user forum) = rows.at (.choices user forum) := by
  apply choices_congr
  intro discussion
  rw [overrideOf_keepOverrides]
  cases hget : rows.overrideOf user discussion with
  | none => rfl
  | some override =>
      by_cases hforum : override.forumId = forum
      · rw [Option.filter_some_pos (hkeep override discussion hget hforum)]
      · rw [Option.filter_filter, Option.filter_some_neg (by simp [hforum]),
          Option.filter_some_neg (by simp [hforum])]

theorem choices_putOverride (howned : rows.Owned owner) {override : Override}
    (hforum : override.forumId = owner override.discussionId)
    (hother : ¬(override.userId = user ∧ override.forumId = forum)) :
    (rows.putOverride override).2.at (.choices user forum) = rows.at (.choices user forum) := by
  rw [Rows.putOverride]
  split
  · rfl
  · apply choices_congr
    intro discussion
    by_cases hkey : (user, discussion) = override.key
    · obtain ⟨rfl, rfl⟩ := Prod.mk.inj hkey
      have hnew : override.forumId ≠ forum := fun h => hother ⟨rfl, h⟩
      rw [overrideOf_insertOverride_self]
      cases hget : rows.overrideOf override.userId override.discussionId with
      | none => rw [Option.filter_some_neg (by simpa using hnew), Option.filter_none]
      | some stored =>
          have hstored : stored.forumId ≠ forum := by
            rw [howned _ _ _ hget, ← hforum]
            exact hnew
          rw [Option.filter_some_neg (by simpa using hnew),
            Option.filter_some_neg (by simpa using hstored)]
    · rw [overrideOf_insertOverride_of_ne hkey]

/-- Sets of followers do not depend on who owns a discussion. -/
theorem followers_perform {request : RowRequest} {forum : Id}
    (hslot : ¬request.Touches owner (.followers forum)) :
    (perform request rows).2.at (.followers forum) = rows.at (.followers forum) := by
  cases request with
  | follows | followersOf | overrideOf | overridesOf | overridesFor => rfl
  | dropOverride | clearOverrides => rfl
  | follow user changed =>
      have hother : ¬forum = changed := fun h => hslot h.symm
      exact followers_congr fun other => by simp [perform, follows_follow, hother]
  | unfollow user changed =>
      have hother : ¬forum = changed := fun h => hslot h.symm
      exact followers_congr fun other => by simp [perform, follows_unfollow, hother]
  | putOverride override =>
      rw [perform, Rows.putOverride]
      split <;> rfl
  | eraseUser erased => exact (hslot trivial).elim
  | eraseForum erased =>
      have herased : ¬forum = erased := fun h => hslot h.symm
      exact followers_congr fun user => (follows_keepFollowings _).trans (by simp [herased])

theorem choices_perform (howned : rows.Owned owner) {request : RowRequest}
    (hrespects : request.Respects owner) (hslot : ¬request.Touches owner (.choices user forum)) :
    (perform request rows).2.at (.choices user forum) = rows.at (.choices user forum) := by
  cases request with
  | follows | followersOf | overrideOf | overridesOf | overridesFor => rfl
  | follow | unfollow => rfl
  | putOverride override => exact choices_putOverride howned hrespects hslot
  | dropOverride changed discussion =>
      apply choices_keepOverrides
      intro override other hget hforum
      obtain ⟨rfl, rfl⟩ := key_of_overrideOf hget
      have hkey : override.key ≠ (changed, discussion) := by
        intro h
        obtain ⟨rfl, rfl⟩ := Prod.mk.inj h
        exact hslot ⟨rfl, (howned _ _ _ hget).symm.trans hforum⟩
      simpa using hkey
  | clearOverrides changedUser changedForum =>
      apply choices_keepOverrides
      intro override other hget hforum
      obtain ⟨rfl, -⟩ := key_of_overrideOf hget
      simp only [Bool.not_eq_true', Bool.and_eq_false_iff, decide_eq_false_iff_not]
      by_cases huser : override.userId = changedUser
      · exact .inr fun h => hslot ⟨huser.symm, h.symm.trans hforum⟩
      · exact .inl huser
  | eraseUser erased =>
      apply choices_keepOverrides
      intro override other hget _
      obtain ⟨rfl, -⟩ := key_of_overrideOf hget
      have huser : override.userId ≠ erased := fun h => hslot h.symm
      simpa using huser
  | eraseForum erased =>
      apply choices_keepOverrides
      intro override other _ hforum
      have herased : override.forumId ≠ erased := fun h => hslot (h.symm.trans hforum)
      simpa using herased

/-- What a request does not touch, it leaves as it was. -/
theorem at_perform (howned : rows.Owned owner) {request : RowRequest}
    (hrespects : request.Respects owner) {slot : Slot} (hslot : ¬request.Touches owner slot) :
    (perform request rows).2.at slot = rows.at slot := by
  cases slot with
  | followers forum => exact followers_perform hslot
  | choices user forum => exact choices_perform howned hrespects hslot

end Rows

/-! ### The desk -/

namespace Desk

variable {desk : Desk} {owner : Id → Id} {request : Request}

theorem owned_perform (howned : desk.rows.Owned owner) (hrespects : request.Respects owner) :
    (desk.perform request).2.rows.Owned owner := by
  cases request with
  | rows request => exact howned.perform hrespects
  | register request => exact howned
  | cache request => exact howned

theorem at_perform (howned : desk.rows.Owned owner) (hrespects : request.Respects owner)
    {slot : Slot} (hslot : ¬request.Touches owner slot) :
    (desk.perform request).2.rows.at slot = desk.rows.at slot := by
  cases request with
  | rows request => exact Rows.at_perform howned hrespects hslot
  | register request => rfl
  | cache request => rfl

theorem followers_perform {forum : Id} (hslot : ¬request.Touches owner (.followers forum)) :
    (desk.perform request).2.rows.at (.followers forum) = desk.rows.at (.followers forum) := by
  cases request with
  | rows request => exact Rows.followers_perform hslot
  | register request => rfl
  | cache request => rfl

theorem enabled_perform (desk : Desk) (request : Request) :
    (desk.perform request).2.cache.enabled = desk.cache.enabled := by
  cases request with
  | rows request => rfl
  | register request => rfl
  | cache request => exact Cache.enabled_perform request desk.cache

theorem generation_perform (desk : Desk) (request : Request) :
    (desk.perform request).2.cache.generation =
      if request.isClearing then desk.cache.generation + 1 else desk.cache.generation := by
  cases request with
  | rows request => rfl
  | register request => rfl
  | cache request => exact Cache.generation_perform request desk.cache

end Desk

end DiscussionBoard.Subscription
