import DiscussionBoard.Proofs.Subscription.Entries

/-!
# Changes stay in their part

A change for a user in some forums reads and changes a part of the rows only: the user's followings
of these forums, and the user's overrides for discussions that may be used with them. Its reply and
what it makes of its part are told by the part, so that two changes in parts without a common row
can be made in either order.
-/

namespace DiscussionBoard.Subscription

variable {α β : Type} {homes : Id → Id → Prop}

/-! ### Parts -/

/-- A user in some forums. -/
structure Part where
  user : Id
  forums : Id → Prop

variable {part other : Part} {a b rows : Rows}

/-- The rows of a part, where `homes` relates a discussion to the forums it may be used with. -/
def Part.Has (homes : Id → Id → Prop) (part : Part) : RowKey → Prop
  | .following user forum => user = part.user ∧ part.forums forum
  | .override user discussion =>
    user = part.user ∧ ∃ forum, part.forums forum ∧ homes discussion forum

/-- Overrides are recorded under forums that their discussion may be used with. -/
def Rows.RecordedIn (homes : Id → Id → Prop) (rows : Rows) : Prop :=
  ∀ user discussion override, rows.overrideOf user discussion = some override →
    homes discussion override.forumId

def Rows.AgreeOn (homes : Id → Id → Prop) (part : Part) (a b : Rows) : Prop :=
  ∀ key, part.Has homes key → a.entry key = b.entry key

/-- A change that neither depends on rows outside a part nor changes them. -/
structure Confined (homes : Id → Id → Prop) (part : Part) (change : Rows → α × Rows) : Prop where
  recorded : ∀ rows, rows.RecordedIn homes → (change rows).2.RecordedIn homes
  outside : ∀ rows, rows.RecordedIn homes → ∀ key, ¬part.Has homes key →
    (change rows).2.entry key = rows.entry key
  reply : ∀ a b, a.RecordedIn homes → b.RecordedIn homes → a.AgreeOn homes part b →
    (change a).1 = (change b).1
  inside : ∀ a b, a.RecordedIn homes → b.RecordedIn homes → a.AgreeOn homes part b →
    (change a).2.AgreeOn homes part (change b).2

namespace Confined

theorem bind {first : Rows → α × Rows} {rest : α → Rows → β × Rows}
    (hfirst : Confined homes part first) (hrest : ∀ value, Confined homes part (rest value)) :
    Confined homes part fun rows => rest (first rows).1 (first rows).2 where
  recorded rows hrows := (hrest _).recorded _ (hfirst.recorded rows hrows)
  outside rows hrows key hkey := by
    have hmiddle := hfirst.recorded rows hrows
    rw [(hrest _).outside _ hmiddle key hkey, hfirst.outside rows hrows key hkey]
  reply a b ha hb hagree := by
    rw [hfirst.reply a b ha hb hagree]
    exact (hrest _).reply _ _ (hfirst.recorded a ha) (hfirst.recorded b hb)
      (hfirst.inside a b ha hb hagree)
  inside a b ha hb hagree := by
    rw [hfirst.reply a b ha hb hagree]
    exact (hrest _).inside _ _ (hfirst.recorded a ha) (hfirst.recorded b hb)
      (hfirst.inside a b ha hb hagree)

theorem read {value : Rows → α}
    (hvalue : ∀ a b : Rows, a.AgreeOn homes part b → value a = value b) :
    Confined homes part fun rows => (value rows, rows) where
  recorded _ hrows := hrows
  outside _ _ _ _ := rfl
  reply a b _ _ hagree := hvalue a b hagree
  inside _ _ _ _ hagree := hagree

theorem pure (value : α) : Confined homes part fun rows => (value, rows) :=
  .read fun _ _ _ => rfl

theorem map {change : Rows → α × Rows} (hchange : Confined homes part change) (f : α → β) :
    Confined homes part fun rows => (f (change rows).1, (change rows).2) :=
  hchange.bind fun value => .pure (f value)

/-- Changes in parts without a common row do not notice each other. -/
theorem commute {first : Rows → α × Rows} {second : Rows → β × Rows}
    (hfirst : Confined homes part first) (hsecond : Confined homes other second)
    (hdisjoint : ∀ key, part.Has homes key → ¬other.Has homes key) (hrows : rows.RecordedIn homes) :
    (second (first rows).2).1 = (second rows).1 ∧ (first (second rows).2).1 = (first rows).1 ∧
      (second (first rows).2).2 = (first (second rows).2).2 := by
  have hafterFirst := hfirst.recorded rows hrows
  have hafterSecond := hsecond.recorded rows hrows
  -- Each change finds its part as it was before the other.
  have hother : (first rows).2.AgreeOn homes other rows := fun key hkey =>
    hfirst.outside rows hrows key fun hpart => hdisjoint key hpart hkey
  have hpart : (second rows).2.AgreeOn homes part rows := fun key hkey =>
    hsecond.outside rows hrows key (hdisjoint key hkey)
  refine ⟨hsecond.reply _ _ hafterFirst hrows hother, hfirst.reply _ _ hafterSecond hrows hpart, ?_⟩
  apply Rows.ext_entry
  intro key
  by_cases hkey : part.Has homes key
  · calc (second (first rows).2).2.entry key
        = (first rows).2.entry key := hsecond.outside _ hafterFirst key (hdisjoint key hkey)
      _ = (first (second rows).2).2.entry key :=
          (hfirst.inside _ _ hafterSecond hrows hpart key hkey).symm
  · have hlast : (first (second rows).2).2.entry key = (second rows).2.entry key :=
      hfirst.outside _ hafterSecond key hkey
    rw [hlast]
    by_cases hkeyOther : other.Has homes key
    · exact hsecond.inside _ _ hafterFirst hrows hother key hkeyOther
    · calc (second (first rows).2).2.entry key
          = (first rows).2.entry key := hsecond.outside _ hafterFirst key hkeyOther
        _ = rows.entry key := hfirst.outside rows hrows key hkey
        _ = (second rows).2.entry key := (hsecond.outside rows hrows key hkeyOther).symm

end Confined

/-! ### Requests -/

/-- A request to storage that only changes rows of a part. -/
def RowRequest.Within (homes : Id → Id → Prop) (part : Part) : RowRequest → Prop
  | .follow user forum | .unfollow user forum | .clearOverrides user forum =>
    user = part.user ∧ part.forums forum
  | .putOverride new =>
    new.userId = part.user ∧ part.forums new.forumId ∧ homes new.discussionId new.forumId
  | .dropOverride user discussion => part.Has homes (.override user discussion)
  | .eraseUser user => user = part.user ∧ ∀ forum, part.forums forum
  | _ => False

theorem RowRequest.act_eq_some {request : RowRequest} {user discussion : Id}
    {stored : Option Override} {override : Override}
    (h : request.act (.override user discussion) stored = some override) :
    stored = some override ∨
      request = .putOverride override ∧ (user, discussion) = override.key := by
  cases request with
  | follows | follow | unfollow | followersOf | overrideOf | overridesOf | overridesFor =>
      exact .inl h
  | putOverride new =>
      rw [act] at h
      split at h
      · rename_i hput
        cases h
        exact .inr ⟨rfl, hput.1⟩
      · exact .inl h
  | dropOverride | eraseUser =>
      rw [act] at h
      split at h
      · cases h
      · exact .inl h
  | clearOverrides =>
      rw [act] at h
      split at h
      · exact .inl (Option.filter_eq_some_iff.mp h).1
      · exact .inl h
  | eraseForum => exact .inl (Option.filter_eq_some_iff.mp h).1

theorem recordedIn_perform {request : RowRequest} (hrequest : request.Within homes part)
    (hrows : rows.RecordedIn homes) : (Rows.perform request rows).2.RecordedIn homes := by
  intro user discussion override hget
  have hact := (Rows.entry_perform request rows (.override user discussion)).symm.trans hget
  rcases RowRequest.act_eq_some hact with hstored | ⟨rfl, hkey⟩
  · exact hrows user discussion override hstored
  · obtain ⟨rfl, rfl⟩ := Prod.mk.inj hkey
    exact hrequest.2.2

theorem entry_perform_outside {request : RowRequest} (hrequest : request.Within homes part)
    (hrows : rows.RecordedIn homes) {key : RowKey} (hkey : ¬part.Has homes key) :
    (Rows.perform request rows).2.entry key = rows.entry key := by
  rw [Rows.entry_perform]
  cases request with
  | follows | followersOf | overrideOf | overridesOf | overridesFor | eraseForum =>
      exact hrequest.elim
  | follow user forum | unfollow user forum =>
      cases key with
      | override => rfl
      | following found place =>
          rw [RowRequest.act, if_neg]
          intro h
          cases h
          exact hkey hrequest
  | putOverride new =>
      cases key with
      | following => rfl
      | override user discussion =>
          rw [RowRequest.act, if_neg]
          rintro ⟨h, -⟩
          cases h
          exact hkey ⟨hrequest.1, new.forumId, hrequest.2⟩
  | dropOverride user discussion =>
      cases key with
      | following => rfl
      | override found place =>
          rw [RowRequest.act, if_neg]
          intro h
          cases h
          exact hkey hrequest
  | clearOverrides user forum =>
      cases key with
      | following => rfl
      | override found discussion =>
          rw [RowRequest.act]
          split
          · rename_i hfound
            -- A stored override lies in the part of the forum that it is recorded under.
            cases hget : rows.entry (.override found discussion) with
            | none => rfl
            | some override =>
                have hhome : homes discussion override.forumId :=
                  hrows found discussion override hget
                have hforum : override.forumId ≠ forum := by
                  rintro rfl
                  exact hkey ⟨hfound.trans hrequest.1, override.forumId, hrequest.2, hhome⟩
                exact Option.filter_some_pos (by simpa using hforum)
          · rfl
  | eraseUser user =>
      obtain ⟨rfl, hforums⟩ := hrequest
      cases key with
      | following found place =>
          rw [RowRequest.act, if_neg]
          exact fun hfound => hkey ⟨hfound, hforums place⟩
      | override found discussion =>
          rw [RowRequest.act]
          split
          · rename_i hfound
            refine (Option.eq_none_iff_forall_ne_some.mpr fun override hget => ?_).symm
            exact hkey ⟨hfound, override.forumId, hforums _, hrows found discussion override hget⟩
          · rfl

theorem perform_inside (request : RowRequest) (hagree : a.AgreeOn homes part b) :
    (Rows.perform request a).2.AgreeOn homes part (Rows.perform request b).2 := by
  intro key hkey
  rw [Rows.entry_perform, Rows.entry_perform, hagree key hkey]

/-! ### Replies of requests -/

theorem countP_followings_congr {test : Following → Bool}
    (h : ∀ user forum, test ⟨user, forum⟩ = true → a.follows user forum = b.follows user forum) :
    a.followings.toList.countP test = b.followings.toList.countP test := by
  rw [KeySet.toList, KeySet.toList, Table.countP_keys, Table.countP_keys]
  apply Table.countP_congr fun row _ => test row
  rintro ⟨user, forum⟩
  by_cases htest : test ⟨user, forum⟩ = true
  · have hfollows := h user forum htest
    rw [Rows.follows, Rows.follows, Table.contains, Table.contains] at hfollows
    cases ha : a.followings.get? ⟨user, forum⟩ <;> cases hb : b.followings.get? ⟨user, forum⟩ <;>
      simp_all
  · have hnone : ∀ found : Option Unit, found.filter (fun _ => test ⟨user, forum⟩) = none := by
      intro found
      cases found <;> simp [htest]
    rw [hnone, hnone]

theorem countP_overrides_congr {test : Override → Bool}
    (h : ∀ user discussion, (a.overrideOf user discussion).filter test =
      (b.overrideOf user discussion).filter test) :
    a.overrides.values.countP test = b.overrides.values.countP test := by
  rw [Table.countP_values, Table.countP_values]
  apply Table.countP_congr fun _ override => test override
  rintro ⟨user, discussion⟩
  exact h user discussion

/-- Of the overrides that all lie in a part there are as many in any rows that agree on the part. -/
theorem countP_overrides_of_agreeOn {test : Override → Bool} (ha : a.RecordedIn homes)
    (hb : b.RecordedIn homes) (hagree : a.AgreeOn homes part b)
    (htest : ∀ override, test override = true →
      override.userId = part.user ∧ part.forums override.forumId) :
    a.overrides.values.countP test = b.overrides.values.countP test := by
  apply countP_overrides_congr
  intro user discussion
  by_cases hkey : part.Has homes (.override user discussion)
  · exact congrArg (Option.filter test) (hagree _ hkey)
  · have hnone : ∀ {rows : Rows}, rows.RecordedIn homes →
        (rows.overrideOf user discussion).filter test = none := by
      intro rows hrows
      apply Option.eq_none_iff_forall_ne_some.mpr
      intro override hfiltered
      obtain ⟨hget, hpasses⟩ := Option.filter_eq_some_iff.mp hfiltered
      obtain ⟨huser, hforum⟩ := htest override hpasses
      have hfound : override.userId = user := (Rows.key_of_overrideOf hget).1
      exact hkey ⟨hfound.symm.trans huser, override.forumId, hforum,
        hrows user discussion override hget⟩
    rw [hnone ha, hnone hb]

theorem reply_perform {request : RowRequest} (hrequest : request.Within homes part)
    (ha : a.RecordedIn homes) (hb : b.RecordedIn homes) (hagree : a.AgreeOn homes part b) :
    (Rows.perform request a).1 = (Rows.perform request b).1 := by
  cases request with
  | follows | followersOf | overrideOf | overridesOf | overridesFor | eraseForum =>
      exact hrequest.elim
  | follow user forum => exact congrArg (!·) (hagree (.following user forum) hrequest)
  | unfollow user forum => exact hagree (.following user forum) hrequest
  | putOverride new =>
      have hstored : a.overrideOf new.userId new.discussionId =
          b.overrideOf new.userId new.discussionId :=
        hagree (.override new.userId new.discussionId) ⟨hrequest.1, new.forumId, hrequest.2⟩
      rw [Rows.perform, Rows.perform, Rows.putOverride, Rows.putOverride, hstored]
      split <;> rfl
  | dropOverride user discussion =>
      exact congrArg Option.isSome (hagree (.override user discussion) hrequest)
  | clearOverrides user forum =>
      rw [Rows.perform, Rows.perform, Rows.fst_clearOverrides, Rows.fst_clearOverrides, Rows.count,
        Rows.count, countP_overrides_of_agreeOn ha hb hagree]
      · simp
      · intro override hpasses
        obtain ⟨rfl, rfl⟩ : override.userId = user ∧ override.forumId = forum := by
          simpa using hpasses
        exact hrequest
  | eraseUser user =>
      obtain ⟨rfl, hforums⟩ := hrequest
      rw [Rows.perform, Rows.perform, Rows.fst_eraseUser, Rows.fst_eraseUser, Rows.count,
        Rows.count, countP_overrides_of_agreeOn ha hb hagree, countP_followings_congr]
      · intro user forum hpasses
        exact hagree (.following user forum) ⟨of_decide_eq_true hpasses, hforums forum⟩
      · intro override hpasses
        exact ⟨of_decide_eq_true hpasses, hforums _⟩

theorem confined_perform (request : RowRequest) (hrequest : request.Within homes part) :
    Confined homes part (Rows.perform request) where
  recorded _ hrows := recordedIn_perform hrequest hrows
  outside _ hrows _ hkey := entry_perform_outside hrequest hrows hkey
  reply _ _ ha hb hagree := reply_perform hrequest ha hb hagree
  inside _ _ _ _ hagree := perform_inside request hagree

/-! ### Calls -/

/-- A call that changes rows of a part only. -/
def Call.Within (homes : Id → Id → Prop) (part : Part) : Call → Prop
  | subscribe user forum discussion _ | unsubscribe user forum discussion _ =>
    user = part.user ∧ part.forums forum.id ∧
      ∀ found, discussion = some found → homes found forum.id
  | enrolled user forums | unenrolled user forums =>
    user = part.user ∧ ∀ forum ∈ forums, part.forums forum.id
  | eraseUser user => user = part.user ∧ ∀ forum, part.forums forum
  | _ => False

theorem confined_clearOverrides {forum : Id} (hforum : part.forums forum) :
    Confined homes part fun rows => rows.clearOverrides part.user forum :=
  confined_perform (.clearOverrides part.user forum) ⟨rfl, hforum⟩

theorem confined_changeForum (wanted : Preference) {forum : Id} (hforum : part.forums forum)
    (userRequest : Bool) :
    Confined homes part fun rows => rows.changeForum wanted part.user forum userRequest := by
  have hwrite : Confined homes part fun rows => rows.changeFollowing wanted part.user forum := by
    cases wanted with
    | subscribed => exact confined_perform (.follow part.user forum) ⟨rfl, hforum⟩
    | unsubscribed => exact confined_perform (.unfollow part.user forum) ⟨rfl, hforum⟩
  cases userRequest with
  | false => exact hwrite
  | true => exact hwrite.bind fun changed => (confined_clearOverrides hforum).map fun _ => changed

theorem confined_settle (now : Instant) (wanted : Preference) {forum : Id}
    (hforum : part.forums forum) {discussion : Id} (hhome : homes discussion forum)
    (inherited : Bool) (existing : Option Preference) :
    Confined homes part fun rows =>
      rows.settle now wanted part.user forum discussion inherited existing := by
  unfold Rows.settle
  split
  · split
    · exact confined_perform (.dropOverride part.user discussion) ⟨rfl, forum, hforum, hhome⟩
    · exact .pure false
  · split
    · exact .pure false
    · exact confined_perform (.putOverride ⟨part.user, forum, discussion, wanted, now⟩)
        ⟨rfl, hforum, hhome⟩

theorem confined_changeDiscussion (register : Register) (now : Instant) (wanted : Preference)
    {forum : Forum} (hforum : part.forums forum.id) {discussion : Id}
    (hhome : homes discussion forum.id) :
    Confined homes part fun rows =>
      rows.changeDiscussion register now wanted part.user forum discussion := by
  have hlevel : Confined homes part fun rows =>
      (rows.forumLevel register part.user forum, rows) := by
    apply Confined.read
    intro a b hagree
    have hfollows := hagree (.following part.user forum.id) ⟨rfl, hforum⟩
    unfold Rows.forumLevel
    cases forum.subscriptionMode with
    | forced | disallowed => rfl
    | choose | initial => exact hfollows
  have hstored : Confined homes part fun rows => (rows.preference part.user discussion, rows) := by
    apply Confined.read
    intro a b hagree
    exact congrArg (Option.map Override.preference)
      (hagree (.override part.user discussion) ⟨rfl, forum.id, hforum, hhome⟩)
  have hsettle : ∀ inherited, Confined homes part fun rows =>
      rows.settle now wanted part.user forum.id discussion inherited
        (rows.preference part.user discussion) :=
    fun inherited => hstored.bind (confined_settle now wanted hforum hhome inherited)
  exact hlevel.bind hsettle

theorem confined_change (register : Register) (now : Instant) (wanted : Preference) {forum : Forum}
    (hforum : part.forums forum.id) {discussion : Option Id}
    (hhome : ∀ found, discussion = some found → homes found forum.id) (userRequest : Bool) :
    Confined homes part fun rows =>
      rows.change register now wanted part.user forum discussion userRequest := by
  cases discussion with
  | none => exact confined_changeForum wanted hforum userRequest
  | some discussion =>
      exact confined_changeDiscussion register now wanted hforum (hhome discussion rfl)

theorem confined_enrolled {forums : List Forum} (hforums : ∀ forum ∈ forums, part.forums forum.id) :
    Confined homes part fun rows => rows.enrolled part.user forums := by
  induction forums with
  | nil => exact .pure 0
  | cons forum rest ih =>
      obtain ⟨hforum, hrest⟩ := List.forall_mem_cons.mp hforums
      unfold Rows.enrolled
      split
      · exact (confined_changeForum .subscribed hforum false).bind fun added =>
          (ih hrest).map fun others => added.toNat + others
      · exact ih hrest

theorem confined_unenrolled {forums : List Forum}
    (hforums : ∀ forum ∈ forums, part.forums forum.id) :
    Confined homes part fun rows => rows.unenrolled part.user forums := by
  induction forums with
  | nil => exact .pure 0
  | cons forum rest ih =>
      obtain ⟨hforum, hrest⟩ := List.forall_mem_cons.mp hforums
      have hunfollow : Confined homes part fun rows => rows.unfollow part.user forum.id :=
        confined_perform (.unfollow part.user forum.id) ⟨rfl, hforum⟩
      exact hunfollow.bind fun unfollowed => (confined_clearOverrides hforum).bind fun cleared =>
        (ih hrest).map fun others => unfollowed.toNat + cleared + others

theorem Call.Within.confined {call : Call} (hcall : call.Within homes part) (now : Instant)
    (register : Register) : Confined homes part fun rows => call.outcome now register rows := by
  cases call with
  | subscribe user forum discussion userRequest =>
      obtain ⟨rfl, hforum, hhome⟩ := hcall
      exact (confined_change register now .subscribed hforum hhome userRequest).map _
  | unsubscribe user forum discussion userRequest =>
      obtain ⟨rfl, hforum, hhome⟩ := hcall
      exact (confined_change register now .unsubscribed hforum hhome userRequest).map _
  | enrolled user forums =>
      obtain ⟨rfl, hforums⟩ := hcall
      exact (confined_enrolled hforums).map _
  | unenrolled user forums =>
      obtain ⟨rfl, hforums⟩ := hcall
      exact (confined_unenrolled hforums).map _
  | eraseUser user => exact (confined_perform (.eraseUser user) hcall).map _
  | isSubscribed | subscribers | discussionSubscribers | overridesOf | eraseForum | resetCache =>
      exact hcall.elim

end DiscussionBoard.Subscription
