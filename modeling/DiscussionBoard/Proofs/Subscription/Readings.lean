import DiscussionBoard.Proofs.Subscription.Agreement

/-!
# What look-ups read

A look-up reads a slot from the cache if it is there, and else from storage and into the cache. So
look-ups change nothing that later look-ups read, even where the cache is wrong: each of them
replies as if it were the first.
-/

namespace DiscussionBoard.Subscription

variable {α β : Type} {desk other : Desk}

def Desk.reading (desk : Desk) (slot : Slot) : slot.Value :=
  (desk.cache.at? slot).getD (desk.rows.at slot)

structure Desk.ReadsLike (desk other : Desk) : Prop where
  rows : other.rows = desk.rows
  register : other.register = desk.register
  enabled : other.cache.enabled = desk.cache.enabled
  reading : ∀ slot, other.reading slot = desk.reading slot

theorem Desk.ReadsLike.refl (desk : Desk) : desk.ReadsLike desk :=
  ⟨rfl, rfl, rfl, fun _ => rfl⟩

theorem Desk.ReadsLike.withCache (hlike : desk.ReadsLike other) {cache : Cache}
    (henabled : cache.enabled = other.cache.enabled)
    (hreading : ∀ slot, Desk.reading { other with cache } slot = other.reading slot) :
    desk.ReadsLike { other with cache } where
  rows := hlike.rows
  register := hlike.register
  enabled := henabled.trans hlike.enabled
  reading slot := (hreading slot).trans (hlike.reading slot)

/-- A slot that was read from storage is read from the cache from then on, and is the same. -/
theorem reading_keepFollowers {forum : Id} (huncached : desk.cache.followersOf forum = none)
    (ticket : UInt64) (slot : Slot) :
    Desk.reading { desk with
        cache := desk.cache.keepFollowers forum (desk.rows.at (.followers forum)) ticket }
      slot = desk.reading slot := by
  cases slot with
  | followers key =>
      rw [Desk.reading, Cache.at?, Cache.followersOf_keepFollowers]
      split
      · rename_i hkept
        obtain ⟨-, rfl⟩ := hkept
        rw [Desk.reading, Cache.at?, huncached]
        rfl
      · rfl
  | choices user key =>
      rw [Desk.reading, Cache.keepFollowers]
      split <;> rfl

theorem reading_keepOverrides {user forum : Id}
    (huncached : desk.cache.overridesOf user forum = none) (ticket : UInt64) (slot : Slot) :
    Desk.reading { desk with
        cache := desk.cache.keepOverrides user forum (desk.rows.at (.choices user forum)) ticket }
      slot = desk.reading slot := by
  cases slot with
  | followers key =>
      rw [Desk.reading, Cache.keepOverrides]
      split <;> rfl
  | choices keyUser keyForum =>
      rw [Desk.reading, Cache.at?, Cache.overridesOf_keepOverrides]
      split
      · rename_i hkept
        obtain ⟨-, hkey⟩ := hkept
        cases hkey
        rw [Desk.reading, Cache.at?, huncached]
        rfl
      · rfl

/-! ### Steady programs -/

/-- A program gives one value on all desks that read like this one, and leaves such a desk. -/
def Desk.Steady (desk : Desk) (program : Program signature α) : Prop :=
  ∃ value, ∀ other, desk.ReadsLike other →
    ∃ last, other.run program = (.ok value, last) ∧ desk.ReadsLike last

theorem Desk.Steady.pure (desk : Desk) (value : α) : desk.Steady (pure value) :=
  ⟨value, fun other hlike => ⟨other, rfl, hlike⟩⟩

theorem Desk.Steady.bind {program : Program signature α} {rest : α → Program signature β}
    (hprogram : desk.Steady program) (hrest : ∀ value, desk.Steady (rest value)) :
    desk.Steady (program >>= rest) := by
  obtain ⟨value, hvalue⟩ := hprogram
  obtain ⟨result, hresult⟩ := hrest value
  refine ⟨result, fun other hlike => ?_⟩
  obtain ⟨middle, hrun, hkept⟩ := hvalue other hlike
  obtain ⟨last, hlast, hkept⟩ := hresult middle hkept
  exact ⟨last, (run_bind_of_ok hrun rest).trans hlast, hkept⟩

theorem Desk.Steady.map {program : Program signature α} (hprogram : desk.Steady program)
    (f : α → β) : desk.Steady (f <$> program) := by
  rw [map_eq_pure_bind]
  exact hprogram.bind fun value => .pure desk (f value)

theorem steady_askRows (desk : Desk) {request : RowRequest}
    (hrows : ∀ rows, (Rows.perform request rows).2 = rows) : desk.Steady (askRows request) := by
  refine ⟨(Rows.perform request desk.rows).1, fun other hlike => ⟨other, ?_, hlike⟩⟩
  rw [run_askRows, hrows, hlike.rows, ← hlike.rows]

theorem steady_askRegister (desk : Desk) (request : RegisterRequest) :
    desk.Steady (askRegister request) := by
  refine ⟨answerFromRegister desk.register request, fun other hlike => ⟨other, ?_, hlike⟩⟩
  rw [run_askRegister, hlike.register]

theorem steady_isEnabled (desk : Desk) : desk.Steady (askCache .isEnabled) :=
  ⟨desk.cache.enabled, fun other hlike => ⟨other, by rw [← hlike.enabled]; rfl, hlike⟩⟩

theorem steady_followersOf (desk : Desk) (forum : Id) : desk.Steady (followersOf forum) := by
  refine ⟨desk.reading (.followers forum), fun other hlike => ?_⟩
  rw [← hlike.reading, Desk.reading, Cache.at?, followersOf, run_bind_of_ok (run_askCache other _)]
  dsimp only [Cache.perform]
  cases hcached : other.cache.followersOf forum with
  | some users => exact ⟨other, rfl, hlike⟩
  | none =>
      have henabled := Cache.enabled_perform
        (.keepFollowers forum (other.rows.at (.followers forum)) other.cache.generation) other.cache
      exact ⟨_, rfl, hlike.withCache henabled (reading_keepFollowers hcached _)⟩

theorem steady_overridesOf (desk : Desk) (user forum : Id) :
    desk.Steady (overridesOf user forum) := by
  refine ⟨desk.reading (.choices user forum), fun other hlike => ?_⟩
  rw [← hlike.reading, Desk.reading, Cache.at?, overridesOf, run_bind_of_ok (run_askCache other _)]
  dsimp only [Cache.perform]
  cases hcached : other.cache.overridesOf user forum with
  | some choices => exact ⟨other, rfl, hlike⟩
  | none =>
      have henabled := Cache.enabled_perform
        (.keepOverrides user forum (other.rows.at (.choices user forum)) other.cache.generation)
        other.cache
      exact ⟨_, rfl, hlike.withCache henabled (reading_keepOverrides hcached _)⟩

theorem steady_forumLevel (desk : Desk) (user : Id) (forum : Forum) :
    desk.Steady (forumLevel user forum) := by
  unfold forumLevel
  cases forum.subscriptionMode with
  | forced => exact steady_askRegister desk _
  | disallowed => exact .pure desk false
  | choose | initial =>
      apply (steady_isEnabled desk).bind
      intro enabled
      split
      · exact (steady_followersOf desk forum.id).bind fun users => .pure desk _
      · exact steady_askRows desk fun _ => rfl

theorem steady_preference (desk : Desk) (user forum discussion : Id) :
    desk.Steady (preference user forum discussion) := by
  apply (steady_isEnabled desk).bind
  intro enabled
  split
  · exact (steady_overridesOf desk user forum).bind fun overrides => .pure desk _
  · exact (steady_askRows desk fun _ => rfl).bind fun override => .pure desk _

theorem steady_isSubscribed (desk : Desk) (user : Id) (forum : Forum) (discussion : Option Id) :
    desk.Steady (isSubscribed user forum discussion) := by
  apply (steady_forumLevel desk user forum).bind
  intro inherited
  cases discussion with
  | none => exact .pure desk inherited
  | some discussion =>
      dsimp only
      split
      · exact (steady_preference desk user forum.id discussion).bind fun own => .pure desk _
      · exact .pure desk inherited

theorem steady_allowedAmong (desk : Desk) (forum : Id) (users : List Id) :
    desk.Steady (allowedAmong forum users) := by
  induction users with
  | nil => exact .pure desk []
  | cons user rest ih =>
      exact (steady_askRegister desk _).bind fun allowed => ih.bind fun others => .pure desk _

theorem steady_subscribers (desk : Desk) (forum : Forum) : desk.Steady (subscribers forum) := by
  unfold subscribers
  cases forum.subscriptionMode with
  | disallowed => exact .pure desk []
  | forced =>
      apply (steady_askRegister desk _).bind
      intro enrolled
      exact (steady_allowedAmong desk forum.id enrolled).bind fun users => .pure desk _
  | choose | initial => exact (steady_followersOf desk forum.id).bind fun users => .pure desk _

theorem steady_discussionSubscribers (desk : Desk) (forum : Forum) (discussion : Id) :
    desk.Steady (discussionSubscribers forum discussion) := by
  unfold discussionSubscribers
  split
  · apply (steady_followersOf desk forum.id).bind
    intro users
    exact (steady_askRows desk fun _ => rfl).bind fun choices => .pure desk _
  · exact steady_subscribers desk forum

theorem steady_program (desk : Desk) (now : Instant) {call : Call}
    (hcall : call.lookedUp.isSome = true) : desk.Steady (call.program now) := by
  cases call with
  | isSubscribed user forum discussion =>
      exact (steady_isSubscribed desk user forum discussion).map _
  | subscribers forum => exact (steady_subscribers desk forum).map _
  | discussionSubscribers forum discussion =>
      exact (steady_discussionSubscribers desk forum discussion).map _
  | subscribe | unsubscribe | overridesOf | enrolled | unenrolled | eraseUser | eraseForum
  | resetCache => cases hcall

/-- Look-ups get their replies on every desk that reads like this one. -/
theorem runAll_of_lookedUp (desk : Desk) (questions : List (Instant × Call))
    (hquestions : ∀ question ∈ questions, question.2.lookedUp.isSome = true) :
    ∃ replies : List Reply, ∀ other, desk.ReadsLike other →
      (other.runAll questions).1 = replies.map .ok ∧ desk.ReadsLike (other.runAll questions).2 := by
  induction questions with
  | nil => exact ⟨[], fun other hlike => ⟨rfl, hlike⟩⟩
  | cons question rest ih =>
      obtain ⟨hfirst, hrest⟩ := List.forall_mem_cons.mp hquestions
      obtain ⟨reply, hreply⟩ := steady_program desk question.1 hfirst
      obtain ⟨replies, hreplies⟩ := ih hrest
      refine ⟨reply :: replies, fun other hlike => ?_⟩
      obtain ⟨middle, hrun, hkept⟩ := hreply other hlike
      obtain ⟨hrestReplies, hlast⟩ := hreplies middle hkept
      rw [Desk.runAll, hrun]
      exact ⟨congrArg _ hrestReplies, hlast⟩

end DiscussionBoard.Subscription
