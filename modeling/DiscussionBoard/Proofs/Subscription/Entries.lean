import DiscussionBoard.Proofs.Subscription.Undated

/-!
# Rows key by key

Rows are a following or none for every user and forum, and an override or none for every user and
discussion. A request to storage changes each of these entries by itself: what becomes of an entry
depends on no other entry.
-/

namespace DiscussionBoard.Subscription

inductive RowKey
  | following (user forum : Id)
  | override (user discussion : Id)

abbrev RowKey.Value : RowKey → Type
  | following _ _ => Bool
  | override _ _ => Option Override

def Rows.entry (rows : Rows) : (key : RowKey) → key.Value
  | .following user forum => rows.follows user forum
  | .override user discussion => rows.overrideOf user discussion

theorem Rows.ext_entry {a b : Rows} (h : ∀ key, a.entry key = b.entry key) : a = b := by
  apply eq_of_tables
  · apply KeySet.ext
    rintro ⟨user, forum⟩
    exact Bool.eq_iff_iff.mp (h (.following user forum))
  · apply Table.ext
    rintro ⟨user, discussion⟩
    exact h (.override user discussion)

/-- What a request makes of an entry. -/
def RowRequest.act : RowRequest → (key : RowKey) → key.Value → key.Value
  | .follow user forum, .following other place, holds =>
    if (other, place) = (user, forum) then true else holds
  | .unfollow user forum, .following other place, holds =>
    if (other, place) = (user, forum) then false else holds
  | .putOverride new, .override user discussion, stored =>
    if (user, discussion) = new.key ∧ ¬stored.any (·.preference = new.preference) then some new
    else stored
  | .dropOverride user discussion, .override other found, stored =>
    if (other, found) = (user, discussion) then none else stored
  | .clearOverrides user forum, .override other _, stored =>
    if other = user then stored.filter (·.forumId ≠ forum) else stored
  | .eraseUser user, .following other _, holds => if other = user then false else holds
  | .eraseUser user, .override other _, stored => if other = user then none else stored
  | .eraseForum forum, .following _ place, holds => if place = forum then false else holds
  | .eraseForum forum, .override _ _, stored => stored.filter (·.forumId ≠ forum)
  | _, _, value => value

namespace Rows

variable {rows : Rows} {user forum discussion other place found : Id}

theorem overrideOf_putOverride (new : Override) :
    (rows.putOverride new).2.overrideOf user discussion =
      RowRequest.act (.putOverride new) (.override user discussion)
        (rows.overrideOf user discussion) := by
  by_cases hkey : (user, discussion) = new.key
  · obtain ⟨rfl, rfl⟩ := Prod.mk.inj hkey
    by_cases hsame : (rows.overrideOf new.userId new.discussionId).any
        (·.preference = new.preference) = true
    · rw [putOverride, if_pos hsame, RowRequest.act, if_neg fun h => h.2 hsame]
    · rw [putOverride, if_neg hsame, RowRequest.act, if_pos ⟨hkey, hsame⟩]
      exact overrideOf_insertOverride_self new
  · rw [overrideOf_putOverride_of_ne hkey, RowRequest.act, if_neg fun h => hkey h.1]

theorem overrideOf_dropOverride :
    (rows.dropOverride user discussion).2.overrideOf other found =
      RowRequest.act (.dropOverride user discussion) (.override other found)
        (rows.overrideOf other found) := by
  apply Option.ext
  intro override
  rw [overrideOf_dropOverride_iff, RowRequest.act]
  split <;> simp [*]

theorem overrideOf_clearOverrides :
    (rows.clearOverrides user forum).2.overrideOf other discussion =
      RowRequest.act (.clearOverrides user forum) (.override other discussion)
        (rows.overrideOf other discussion) := by
  apply Option.ext
  intro override
  rw [overrideOf_clearOverrides_iff, RowRequest.act]
  split <;> simp [*]

theorem overrideOf_eraseUser :
    (rows.eraseUser user).2.overrideOf other discussion =
      RowRequest.act (.eraseUser user) (.override other discussion)
        (rows.overrideOf other discussion) := by
  apply Option.ext
  intro override
  rw [overrideOf_eraseUser_iff, RowRequest.act]
  split <;> simp [*]

theorem overrideOf_eraseForum :
    (rows.eraseForum forum).2.overrideOf user discussion =
      RowRequest.act (.eraseForum forum) (.override user discussion)
        (rows.overrideOf user discussion) := by
  apply Option.ext
  intro override
  rw [overrideOf_eraseForum_iff, RowRequest.act]
  simp

theorem entry_perform (request : RowRequest) (rows : Rows) (key : RowKey) :
    (perform request rows).2.entry key = request.act key (rows.entry key) := by
  cases request with
  | follows | followersOf | overrideOf | overridesOf | overridesFor => cases key <;> rfl
  | follow user forum =>
      cases key with
      | override => rfl
      | following other place =>
          rw [entry, Bool.eq_iff_iff, perform, follows_follow, RowRequest.act]
          split <;> simp_all [entry]
  | unfollow user forum =>
      cases key with
      | override => rfl
      | following other place =>
          rw [entry, Bool.eq_iff_iff, perform, follows_unfollow, RowRequest.act]
          split <;> simp_all [entry]
  | putOverride new =>
      cases key with
      | following other place =>
          rw [perform, putOverride]
          split <;> rfl
      | override => exact overrideOf_putOverride new
  | dropOverride user discussion =>
      cases key with
      | following => rfl
      | override => exact overrideOf_dropOverride
  | clearOverrides user forum =>
      cases key with
      | following => rfl
      | override => exact overrideOf_clearOverrides
  | eraseUser user =>
      cases key with
      | following other place =>
          rw [entry, Bool.eq_iff_iff, perform, follows_eraseUser, RowRequest.act]
          split <;> simp_all [entry]
      | override => exact overrideOf_eraseUser
  | eraseForum forum =>
      cases key with
      | following other place =>
          rw [entry, Bool.eq_iff_iff, perform, follows_eraseForum, RowRequest.act]
          split <;> simp_all [entry]
      | override => exact overrideOf_eraseForum

end Rows

end DiscussionBoard.Subscription
