import DiscussionBoard.Proofs.Subscription.Failure

/-!
# Torn calls

Two kinds of calls write a following and make another request before they clear the forum in the
cache. They leave a stale set of followers exactly when that request fails after a change to a
cached set.
-/

namespace DiscussionBoard.Subscription

variable {owner : Id → Id} {fails : Nat → Option Fault} {made : Nat} {desk : Desk}

/-! ### Followings written and not cleared -/

theorem Rows.at_changeFollowing {rows : Rows} {wanted : Preference} {user forum : Id} {slot : Slot}
    (hslot : slot = .followers forum → rows.follows user forum = wanted.isSubscribed) :
    (rows.changeFollowing wanted user forum).2.at slot = rows.at slot := by
  cases slot with
  | choices => cases wanted <;> rfl
  | followers other =>
      apply followers_congr
      intro otherUser
      rw [follows_changeFollowing]
      split
      · rename_i hsame
        obtain ⟨rfl, rfl⟩ := hsame
        rw [hslot rfl]
      · rfl

/-- The followers of a forum are cached, and tell that a user follows it, or does not. -/
def Desk.CachesFollowing (desk : Desk) (user forum : Id) (following : Bool) : Prop :=
  (desk.cache.followersOf forum).isSome = true ∧ desk.rows.follows user forum = following

/-- A change of a following that is not cleared makes the cache stale exactly if it changes a cached
set. -/
theorem coherent_changeFollowing_iff (hcoherent : desk.Coherent) (wanted : Preference)
    (user forum : Id) :
    Desk.Coherent { desk with rows := (desk.rows.changeFollowing wanted user forum).2 } ↔
      ¬desk.CachesFollowing user forum (!wanted.isSubscribed) := by
  constructor
  · rintro hkept ⟨hcached, hfollows⟩
    obtain ⟨users, hcached⟩ := Option.isSome_iff_exists.mp hcached
    have hbefore := hcoherent (.followers forum) users hcached
    have hafter := hkept (.followers forum) users hcached
    have hsame : desk.rows.follows user forum =
        (desk.rows.changeFollowing wanted user forum).2.follows user forum := by
      rw [← Rows.contains_followers, ← Rows.contains_followers, ← hbefore]
      exact congrArg (fun users : KeySet Id => users.contains user) hafter
    have hwanted : (desk.rows.changeFollowing wanted user forum).2.follows user forum =
        wanted.isSubscribed := by
      rw [Bool.eq_iff_iff, Rows.follows_changeFollowing, if_pos ⟨rfl, rfl⟩]
    rw [hwanted, hfollows] at hsame
    cases wanted <;> cases hsame
  · intro hnot slot value hcached
    refine (hcoherent slot value hcached).trans (Rows.at_changeFollowing ?_).symm
    rintro rfl
    have hsome : (desk.cache.followersOf forum).isSome = true := Option.isSome_of_eq_some hcached
    exact Decidable.byContradiction fun hdiffers => hnot ⟨hsome, Bool.eq_not_of_ne hdiffers⟩

/-- The end of a change to a following on the user's own request. -/
def clearFollowing (user forum : Id) (changed : Bool) : Program signature Bool := do
  invalidate (.userForum user forum)
  invalidate (.forum forum)
  pure changed

theorem runFailing_clearFollowing (desk : Desk) (user forum : Id) (changed : Bool) :
    (desk.runFailing fails made (clearFollowing user forum changed)).2.1 =
      { desk with
        cache := (desk.cache.invalidate (.userForum user forum)).invalidate (.forum forum) } := by
  rw [clearFollowing, runFailing_invalidate, runFailing_invalidate, runFailing_pure]

theorem runFailing_changeForum (desk : Desk) (fails : Nat → Option Fault) (made : Nat)
    (wanted : Preference) (user forum : Id) :
    (desk.runFailing fails made (changeForum wanted user forum true)).2.1 =
      if (fails made).isSome then desk
      else if (fails (made + 1)).isSome then
        { desk with rows := (desk.rows.changeFollowing wanted user forum).2 }
      else (desk.run (changeForum wanted user forum true)).2 := by
  cases wanted with
  | subscribed =>
      have hrun := runFailing_askRows_askRows desk fails made (.follow user forum)
        (.clearOverrides user forum) fun changed _ => clearFollowing user forum changed
      rw [runFailing_clearFollowing] at hrun
      exact hrun
  | unsubscribed =>
      have hrun := runFailing_askRows_askRows desk fails made (.unfollow user forum)
        (.clearOverrides user forum) fun changed _ => clearFollowing user forum changed
      rw [runFailing_clearFollowing] at hrun
      exact hrun

theorem runFailing_changeForum_coherent_iff (hcoherent : desk.Coherent)
    (howned : desk.rows.Owned owner) (wanted : Preference) (user forum : Id) :
    (desk.runFailing fails 0 (Reply.switch <$> changeForum wanted user forum true)).2.1.Coherent ↔
      ¬(fails 0 = none ∧ (fails 1).isSome = true ∧
        desk.CachesFollowing user forum (!wanted.isSubscribed)) := by
  have htidy : (changeForum wanted user forum true).Obeys
      (rules owner desk.cache.enabled fun _ => True) (fun memo _ => ({} : Memo).Tidies memo) {} :=
    obeys_changeForum (fun _ _ => trivial) wanted user forum true fun _ => trivial
  obtain ⟨-, -, hdone, -⟩ := run_tidy hcoherent howned htidy
  rw [map_eq_pure_bind, runFailing_bind_pure, runFailing_changeForum]
  cases hfirst : fails 0 with
  | some fault => simpa using hcoherent
  | none =>
      cases hsecond : fails 1 with
      | some fault =>
          simpa [hsecond] using coherent_changeFollowing_iff hcoherent wanted user forum
      | none => simpa [hsecond] using hdone

/-- A user is taken out of forums, and a request fails between the two writes for one of them. -/
def Desk.TornBetween (desk : Desk) (fails : Nat → Option Fault) (made : Nat) (user : Id)
    (forums : List Forum) : Prop :=
  ∃ earlier forum later, forums = earlier ++ forum :: later ∧
    (∀ before ∈ earlier, before.id ≠ forum.id) ∧
    (∀ request < 2 * earlier.length + 1, fails (made + request) = none) ∧
    (fails (made + (2 * earlier.length + 1))).isSome = true ∧
    desk.CachesFollowing user forum.id true

theorem tornBetween_cons {user : Id} {head : Forum} {rest : List Forum} :
    desk.TornBetween fails made user (head :: rest) ↔
      fails made = none ∧
        ((fails (made + 1)).isSome = true ∧ desk.CachesFollowing user head.id true ∨
          fails (made + 1) = none ∧
            ∃ earlier forum later, rest = earlier ++ forum :: later ∧
              (∀ before ∈ head :: earlier, before.id ≠ forum.id) ∧
              (∀ request < 2 * earlier.length + 1, fails (made + 2 + request) = none) ∧
              (fails (made + 2 + (2 * earlier.length + 1))).isSome = true ∧
              desk.CachesFollowing user forum.id true) := by
  constructor
  · rintro ⟨earlier, forum, later, hsplit, hfresh, hstarts, hfails, hcaches⟩
    refine ⟨hstarts 0 (by omega), ?_⟩
    cases earlier with
    | nil =>
        cases hsplit
        exact .inl ⟨hfails, hcaches⟩
    | cons before earlier =>
        cases hsplit
        refine .inr ⟨hstarts 1 (by simp), earlier, forum, later, rfl, hfresh, ?_, ?_, hcaches⟩
        · intro request hrequest
          rw [Nat.add_assoc, Nat.add_comm 2]
          exact hstarts (request + 2) (by simp only [List.length_cons]; omega)
        · have hsame : made + 2 + (2 * earlier.length + 1) =
              made + (2 * (head :: earlier).length + 1) := by
            simp only [List.length_cons]
            omega
          rw [hsame]
          exact hfails
  · rintro ⟨hfirst, ⟨hfails, hcaches⟩ | ⟨hsecond, earlier, forum, later, rfl, hfresh, hstarts,
      hfails, hcaches⟩⟩
    · refine ⟨[], head, rest, rfl, nofun, ?_, hfails, hcaches⟩
      intro request hrequest
      obtain rfl : request = 0 := by simpa using hrequest
      exact hfirst
    · refine ⟨head :: earlier, forum, later, rfl, hfresh, ?_, ?_, hcaches⟩
      · intro request hrequest
        simp only [List.length_cons] at hrequest
        match request with
        | 0 => exact hfirst
        | 1 => exact hsecond
        | request + 2 =>
            have hlater := hstarts request (by omega)
            rwa [Nat.add_assoc, Nat.add_comm 2] at hlater
      · have hsame : made + (2 * (head :: earlier).length + 1) =
            made + 2 + (2 * earlier.length + 1) := by
          simp only [List.length_cons]
          omega
        rw [hsame]
        exact hfails

/-- A user is out of one forum. -/
def Desk.withoutFollowing (desk : Desk) (user forum : Id) : Desk :=
  ⟨((desk.rows.unfollow user forum).2.clearOverrides user forum).2, desk.register,
    desk.cache.invalidate (.forum forum)⟩

theorem cachesFollowing_withoutFollowing {user head forum : Id} :
    (desk.withoutFollowing user head).CachesFollowing user forum true ↔
      head ≠ forum ∧ desk.CachesFollowing user forum true := by
  have hcached : ((desk.cache.invalidate (.forum head)).followersOf forum).isSome = true ↔
      head ≠ forum ∧ (desk.cache.followersOf forum).isSome = true := by
    rw [Cache.followersOf_invalidate]
    by_cases hsame : head = forum <;> simp [Scope.coversFollowers, hsame]
  have hfollows : (desk.withoutFollowing user head).rows.follows user forum = true ↔
      ¬(user = user ∧ forum = head) ∧ desk.rows.follows user forum = true :=
    Rows.follows_unfollow
  rw [Desk.CachesFollowing, Desk.CachesFollowing, Desk.withoutFollowing, hcached]
  constructor
  · rintro ⟨⟨hother, hsome⟩, hfollowing⟩
    exact ⟨hother, hsome, (hfollows.mp hfollowing).2⟩
  · rintro ⟨hother, hsome, hfollowing⟩
    exact ⟨⟨hother, hsome⟩, hfollows.mpr ⟨fun h => hother h.2.symm, hfollowing⟩⟩

theorem tornBetween_withoutFollowing {user : Id} {head : Forum} {rest : List Forum} :
    (desk.withoutFollowing user head.id).TornBetween fails made user rest ↔
      ∃ earlier forum later, rest = earlier ++ forum :: later ∧
        (∀ before ∈ head :: earlier, before.id ≠ forum.id) ∧
        (∀ request < 2 * earlier.length + 1, fails (made + request) = none) ∧
        (fails (made + (2 * earlier.length + 1))).isSome = true ∧
        desk.CachesFollowing user forum.id true := by
  unfold Desk.TornBetween
  simp only [cachesFollowing_withoutFollowing, List.forall_mem_cons]
  constructor
  · rintro ⟨earlier, forum, later, hsplit, hfresh, hstarts, hfails, hhead, hcaches⟩
    exact ⟨earlier, forum, later, hsplit, ⟨hhead, hfresh⟩, hstarts, hfails, hcaches⟩
  · rintro ⟨earlier, forum, later, hsplit, ⟨hhead, hfresh⟩, hstarts, hfails, hcaches⟩
    exact ⟨earlier, forum, later, hsplit, hfresh, hstarts, hfails, hhead, hcaches⟩

theorem runFailing_unenrolled_cons (desk : Desk) (fails : Nat → Option Fault) (made : Nat)
    (user : Id) (head : Forum) (rest : List Forum) :
    (desk.runFailing fails made (unenrolled user (head :: rest))).2.1 =
      if (fails made).isSome then desk
      else if (fails (made + 1)).isSome then
        { desk with rows := (desk.rows.changeFollowing .unsubscribed user head.id).2 }
      else
        ((desk.withoutFollowing user head.id).runFailing fails (made + 2)
          (unenrolled user rest)).2.1 := by
  refine (runFailing_askRows_askRows desk fails made (.unfollow user head.id)
    (.clearOverrides user head.id) fun unfollowed cleared => (do
      invalidate (.forum head.id)
      let others ← unenrolled user rest
      pure (unfollowed.toNat + cleared + others))).trans ?_
  rw [runFailing_invalidate, runFailing_bind_pure]
  rfl

theorem runFailing_unenrolled_coherent_iff (hcoherent : desk.Coherent)
    (howned : desk.rows.Owned owner) (user : Id) (forums : List Forum) :
    (desk.runFailing fails made (unenrolled user forums)).2.1.Coherent ↔
      ¬desk.TornBetween fails made user forums := by
  induction forums generalizing desk made with
  | nil =>
      refine iff_of_true hcoherent ?_
      rintro ⟨earlier, forum, later, hsplit, -⟩
      simp at hsplit
  | cons head rest ih =>
      -- The desk between two forums is the one that a call for the first forum alone leaves.
      have htidy : (unenrolled user [head]).Obeys (rules owner desk.cache.enabled fun _ => True)
          (fun memo _ => ({} : Memo).Tidies memo) {} :=
        obeys_unenrolled (fun _ _ => trivial) user [head] fun _ _ => trivial
      obtain ⟨-, -, hkept, hkeptOwned, -⟩ := run_tidy hcoherent howned htidy
      have hrest : ((desk.withoutFollowing user head.id).runFailing fails (made + 2)
          (unenrolled user rest)).2.1.Coherent ↔
          ¬(desk.withoutFollowing user head.id).TornBetween fails (made + 2) user rest :=
        ih hkept hkeptOwned
      have hwritten := coherent_changeFollowing_iff hcoherent .unsubscribed user head.id
      rw [runFailing_unenrolled_cons, tornBetween_cons, ← tornBetween_withoutFollowing]
      cases hfirst : fails made with
      | some fault => simpa using hcoherent
      | none =>
          cases hsecond : fails (made + 1) with
          | some fault => simpa [Preference.isSubscribed] using hwritten
          | none => simpa using hrest

/-! ### Single calls -/

/-- A call changes a following whose forum is cached, and fails before it clears the forum. -/
inductive Desk.Torn (desk : Desk) (fails : Nat → Option Fault) : Call → Prop
  | subscribe (user : Id) (forum : Forum) (hstarts : fails 0 = none)
    (hfails : (fails 1).isSome = true) (hcaches : desk.CachesFollowing user forum.id false) :
    Torn desk fails (.subscribe user forum none true)
  | unsubscribe (user : Id) (forum : Forum) (hstarts : fails 0 = none)
    (hfails : (fails 1).isSome = true) (hcaches : desk.CachesFollowing user forum.id true) :
    Torn desk fails (.unsubscribe user forum none true)
  | unenrolled (user : Id) (forums : List Forum) (hbetween : desk.TornBetween fails 0 user forums) :
    Torn desk fails (.unenrolled user forums)

theorem Desk.Torn.risks {call : Call} (h : desk.Torn fails call) : ∃ slot, call.Risks slot := by
  cases h with
  | subscribe user forum => exact ⟨.followers forum.id, rfl⟩
  | unsubscribe user forum => exact ⟨.followers forum.id, rfl⟩
  | unenrolled user forums hbetween =>
      obtain ⟨earlier, forum, later, rfl, -⟩ := hbetween
      exact ⟨.followers forum.id, forum, by simp, rfl⟩

theorem torn_subscribe_iff {user : Id} {forum : Forum} :
    desk.Torn fails (.subscribe user forum none true) ↔
      fails 0 = none ∧ (fails 1).isSome = true ∧ desk.CachesFollowing user forum.id false := by
  constructor
  · intro h
    cases h with
    | subscribe _ _ hstarts hfails hcaches => exact ⟨hstarts, hfails, hcaches⟩
  · rintro ⟨hstarts, hfails, hcaches⟩
    exact .subscribe user forum hstarts hfails hcaches

theorem torn_unsubscribe_iff {user : Id} {forum : Forum} :
    desk.Torn fails (.unsubscribe user forum none true) ↔
      fails 0 = none ∧ (fails 1).isSome = true ∧ desk.CachesFollowing user forum.id true := by
  constructor
  · intro h
    cases h with
    | unsubscribe _ _ hstarts hfails hcaches => exact ⟨hstarts, hfails, hcaches⟩
  · rintro ⟨hstarts, hfails, hcaches⟩
    exact .unsubscribe user forum hstarts hfails hcaches

theorem torn_unenrolled_iff {user : Id} {forums : List Forum} :
    desk.Torn fails (.unenrolled user forums) ↔ desk.TornBetween fails 0 user forums := by
  constructor
  · intro h
    cases h with
    | unenrolled _ _ hbetween => exact hbetween
  · exact .unenrolled user forums

/-- A call leaves a coherent desk coherent unless it is torn. -/
theorem runFailing_coherent_iff (hcoherent : desk.Coherent) (howned : desk.rows.Owned owner)
    (now : Instant) {call : Call} (hrespects : call.Respects owner) :
    (desk.runFailing fails 0 (call.program now)).2.1.Coherent ↔ ¬desk.Torn fails call := by
  by_cases hrisks : ∃ slot, call.Risks slot
  · obtain ⟨slot, hrisk⟩ := hrisks
    unfold Call.Risks at hrisk
    split at hrisk
    · rename_i user forum
      rw [torn_subscribe_iff]
      exact runFailing_changeForum_coherent_iff hcoherent howned .subscribed user forum.id
    · rename_i user forum
      rw [torn_unsubscribe_iff]
      exact runFailing_changeForum_coherent_iff hcoherent howned .unsubscribed user forum.id
    · rename_i user forums
      rw [torn_unenrolled_iff, Call.program, map_eq_pure_bind, runFailing_bind_pure]
      exact runFailing_unenrolled_coherent_iff hcoherent howned user forums
    · exact hrisk.elim
  · have hkept : (desk.runFailing fails 0 (call.program now)).2.1.Coherent :=
      runFailing_coherent_of_riskless hcoherent howned now hrespects fun slot h => hrisks ⟨slot, h⟩
    exact iff_of_true hkept fun htorn => hrisks htorn.risks

/-! ### Calls one after the other -/

/-- Calls that can fail keep all cached choices in line with the rows, and the cached sets of
followers as long as no call is torn, and no longer. -/
theorem afterTrials_coherent_iff (owner : Id → Id) (register : Register) (trials : Nat → Trial)
    (hrespects : ∀ count, (trials count).call.Respects owner) (count : Nat) :
    (∀ user forum choices,
      (afterTrials register trials count).cache.overridesOf user forum = some choices →
      choices = (afterTrials register trials count).rows.at (.choices user forum)) ∧
    ((∀ past ≤ count, (afterTrials register trials past).Coherent) ↔
      ∀ past < count,
        ¬(afterTrials register trials past).Torn (trials past).fails (trials past).call) := by
  have hstep : ∀ past, (afterTrials register trials past).Coherent →
      ((afterTrials register trials (past + 1)).Coherent ↔
        ¬(afterTrials register trials past).Torn (trials past).fails (trials past).call) :=
    fun past hcoherent => runFailing_coherent_iff hcoherent
      (afterTrials_choices_coherent hrespects past).1 (trials past).now (hrespects past)
  refine ⟨fun user forum choices hcached => ?_, fun hcoherent past hpast => ?_, fun htorn => ?_⟩
  · refine (afterTrials_choices_coherent hrespects count).2 (.choices user forum) choices ?_ hcached
    rintro ⟨_, ⟨⟩⟩
  · exact (hstep past (hcoherent past (Nat.le_of_lt hpast))).mp (hcoherent (past + 1) hpast)
  · intro past hpast
    induction past with
    | zero => exact fun slot value hcached => by cases slot <;> cases hcached
    | succ past ih =>
        exact (hstep past (ih (Nat.le_of_lt hpast))).mpr (htorn past hpast)

/-- A look-up fills the cache, and then a subscription on the user's own request fails after it has
written the following. -/
def unclearedTrials (count : Nat) : Trial :=
  let forum : Forum := { id := .ofNat 1, courseId := .ofNat 2 }
  if count = 0 then ⟨default, .subscribers forum, fun _ => none⟩
  else ⟨default, .subscribe (.ofNat 7) forum none true,
    fun request => if request = 1 then some (.storage "connection lost" []) else none⟩

theorem afterTrials_coherent_iff_of_uncleared :
    ¬∀ past ≤ 2, (afterTrials {} unclearedTrials past).Coherent := by
  have hrespects : ∀ count, (unclearedTrials count).call.Respects id := by
    intro count
    unfold unclearedTrials
    dsimp only
    split <;> trivial
  intro hcoherent
  have htorn := (afterTrials_coherent_iff id {} unclearedTrials hrespects 2).2.mp hcoherent 1
    (by decide)
  exact htorn (.subscribe (.ofNat 7) { id := .ofNat 1, courseId := .ofNat 2 } rfl rfl
    ⟨by decide +kernel, by decide +kernel⟩)

theorem uncleared_followers_stale :
    (afterTrials {} unclearedTrials 2).cache.followersOf (.ofNat 1) = some .empty ∧
      (afterTrials {} unclearedTrials 2).rows.follows (.ofNat 7) (.ofNat 1) = true ∧
      ¬(afterTrials {} unclearedTrials 2).Coherent := by
  have hcached : (afterTrials {} unclearedTrials 2).cache.followersOf (.ofNat 1) = some .empty := by
    decide +kernel
  have hfollows : (afterTrials {} unclearedTrials 2).rows.follows (.ofNat 7) (.ofNat 1) = true := by
    decide +kernel
  refine ⟨hcached, hfollows, fun hcoherent => ?_⟩
  have hsame := hcoherent (.followers (.ofNat 1)) .empty hcached
  rw [← Rows.contains_followers, ← hsame] at hfollows
  cases hfollows

end DiscussionBoard.Subscription
