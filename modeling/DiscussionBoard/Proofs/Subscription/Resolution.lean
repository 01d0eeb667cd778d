import DiscussionBoard.Proofs.Subscription.Period

/-!
# Look-ups among changes

A look-up of one discussion reads the following of the forum first and the override after it, and
others may change both in between. Each of the two is as it was at some moment of the period of the
look-up, but the two moments may differ, and then the reply need not be what the rows gave at any
one of them.
-/

namespace DiscussionBoard.Subscription

/-- An answer made of the following at one moment of a period and the override at another. It is what
the rows gave at a single moment, unless the following differed between a moment with an override and
one without. -/
structure Resolved (history : Nat → Desk) (during : Nat → Prop) (user : Id) (forum : Forum)
    (discussion : Id) (answer : Bool) : Prop where
  readings : ∃ first last, during first ∧ during last ∧
    answer = (((history last).rows.preference user discussion).map (·.isSubscribed)).getD
      ((history first).rows.follows user forum.id)
  single : (∀ first last, during first → during last →
      ((history first).rows.preference user discussion).isSome = true →
      (history last).rows.preference user discussion = none →
      (history first).rows.follows user forum.id = (history last).rows.follows user forum.id) →
    ∃ moment, during moment ∧ answer =
      (history moment).rows.isSubscribed (history moment).register user forum (some discussion)

theorem Resolved.of_readings {history : Nat → Desk} {during : Nat → Prop} {user : Id}
    {forum : Forum} {discussion : Id} {answer : Bool} {first last : Nat}
    (hmode : forum.subscriptionMode.isOptional = true) (hfirst : during first) (hlast : during last)
    (hanswer : answer = (((history last).rows.preference user discussion).map
      (·.isSubscribed)).getD ((history first).rows.follows user forum.id)) :
    Resolved history during user forum discussion answer where
  readings := ⟨first, last, hfirst, hlast, hanswer⟩
  single hsteady := by
    simp only [Rows.isSubscribed_of_isOptional hmode]
    cases hnow : (history last).rows.preference user discussion with
    | some own =>
        refine ⟨last, hlast, ?_⟩
        rw [hanswer, hnow]
        rfl
    | none =>
        rw [hnow] at hanswer
        cases hbefore : (history first).rows.preference user discussion with
        | none =>
            refine ⟨first, hfirst, ?_⟩
            rw [hanswer, hbefore]
        | some own =>
            have hsame := hsteady first last hfirst hlast (by rw [hbefore]; rfl) hnow
            refine ⟨last, hlast, ?_⟩
            rw [hanswer, hnow, hsame]

variable {ι : Type} [DecidableEq ι] {user : Id} {forum : Forum} {discussion : Id}

/-! ### With a cache -/

theorem program_isSubscribed_asks (user : Id) (hmode : forum.subscriptionMode.isOptional = true)
    (discussion : Option Id) (now : Instant) : ∃ next,
      (Call.isSubscribed user forum discussion).program now = .ask (.cache .isEnabled) next := by
  rw [Call.program, isSubscribed, forumLevel_of_isOptional hmode]
  exact ⟨_, rfl⟩

namespace Play

variable {play : Play ι} {owner : Id → Id} {began ended : Nat} {reader : ι}

theorem began_le_of_over (hmode : forum.subscriptionMode.isOptional = true)
    {asked : Option Id} (hreader : play.calls reader = .isSubscribed user forum asked)
    (hbegan : ∀ turn < began, play.schedule turn ≠ reader)
    (hover : ∀ request next, (play.moment ended).left reader ≠ .ask request next) :
    began ≤ ended := by
  by_contra hlt
  obtain ⟨next, hasks⟩ := program_isSubscribed_asks user hmode asked (play.now reader)
  have hleft : (play.moment ended).left reader = (play.moment 0).left reader :=
    left_of_waiting (Nat.zero_le _) fun between _ hbetween => hbegan between (by omega)
  have hstart : (play.moment 0).left reader = (play.calls reader).program (play.now reader) := rfl
  rw [hstart, hreader, hasks] at hleft
  exact hover _ next hleft

theorem isSubscribed_resolved (hrespects : ∀ caller, (play.calls caller).Respects owner)
    (hclearings : play.clearings ended < UInt64.size)
    (hmode : forum.subscriptionMode.isOptional = true)
    (hreader : play.calls reader = .isSubscribed user forum (some discussion))
    (hbegan : ∀ turn < began, play.schedule turn ≠ reader)
    (hover : ∀ request next, (play.moment ended).left reader ≠ .ask request next) :
    ∃ answer, (play.moment ended).left reader = .done (.switch answer) ∧
      Resolved (fun moment => (play.moment moment).desk) (play.Spans owner began ended) user forum
        discussion answer := by
  have howner : owner discussion = forum.id := by
    have hreader' := hrespects reader
    rwa [hreader] at hreader'
  have hprogram : ((play.calls reader).program (play.now reader)).Obeys (rules owner true fun _ => True)
      (fun after reply => ∃ answer, reply = .switch answer ∧
        ∃ (users : KeySet Id) (choices : Table Id Preference),
          ⟨.followers forum.id, users⟩ ∈ after.known ∧
          ⟨.choices user forum.id, choices⟩ ∈ after.known ∧
          answer = ((choices.get? discussion).map (·.isSubscribed)).getD (users.contains user))
      {} := by
    rw [hreader]
    exact ((obeys_isSubscribed_of_discussion user hmode discussion).mono
      fun _ answer hafter => ⟨answer, rfl, hafter⟩).map _
  have hends := left_obeys hrespects hclearings hprogram
  have hle := began_le_of_over hmode hreader hbegan hover
  have hsound := sound hrespects ended hclearings
  cases hleft : (play.moment ended).left reader with
  | ask request next => exact (hover request next hleft).elim
  | fail fault =>
      rw [hleft] at hends
      exact hends.elim
  | done reply =>
      rw [hleft] at hends
      obtain ⟨answer, rfl, users, choices, husers, hchoices, hanswer⟩ := hends
      obtain ⟨first, hfirst, rfl⟩ :=
        (hsound.known reader _ _ husers).spans hrespects hclearings hle hbegan
      obtain ⟨last, hlast, rfl⟩ :=
        (hsound.known reader _ _ hchoices).spans hrespects hclearings hle hbegan
      refine ⟨answer, rfl, .of_readings hmode hfirst hlast ?_⟩
      have howned : (play.moment last).desk.rows.Owned owner := by
        have hbefore := Nat.lt_of_le_of_lt (play.clearings_mono hlast.1) hclearings
        exact (sound hrespects last hbefore).owned
      rw [hanswer, Rows.contains_followers, Rows.get?_choices_of_owner howned howner]

end Play

/-! ### Without a cache -/

/-- Without a cache a look-up asks for two rows. -/
theorem program_isSubscribed_uncached (user : Id) (hmode : forum.subscriptionMode.isOptional = true)
    (discussion : Id) (now : Instant) :
    ∃ first, (Call.isSubscribed user forum (some discussion)).program now =
        .ask (.cache .isEnabled) first ∧
      ∃ second, first false = .ask (.rows (.follows user forum.id)) second ∧
        ∀ follows, ∃ third, second follows = .ask (.cache .isEnabled) third ∧
          third false = .ask (.rows (.overrideOf user discussion)) fun override =>
            .done (.switch (((override.map (·.preference)).map (·.isSubscribed)).getD follows)) := by
  rw [Call.program, isSubscribed, forumLevel_of_isOptional hmode]
  simp only [hmode, if_true]
  exact ⟨_, rfl, _, rfl, fun follows => ⟨_, rfl, rfl⟩⟩

namespace Scene

variable {scene : Scene ι} {schedule : Nat → ι} {caller : ι} {began ended : Nat}
  {request : Request} {next : Answer request → Program signature Reply}

/-- The cache tells that it is disabled. -/
theorem answered_isEnabled {next : Bool → Program signature Reply}
    (hdisabled : scene.desk.cache.enabled = false)
    (hask : (scene.after schedule began).left caller = .ask (.cache .isEnabled) next)
    (hle : began ≤ ended)
    (hover : ∀ request next, (scene.after schedule ended).left caller ≠ .ask request next) :
    ∃ turn, began ≤ turn ∧ turn < ended ∧
      (scene.after schedule (turn + 1)).left caller = next false := by
  obtain ⟨turn, hafter, hbefore, hanswer⟩ := answered hask hle hover
  refine ⟨turn, hafter, hbefore, hanswer.trans (congrArg next ?_)⟩
  exact (enabled_after scene schedule turn).trans hdisabled

theorem isSubscribed_resolved (hmode : forum.subscriptionMode.isOptional = true) {now : Instant}
    (hdisabled : scene.desk.cache.enabled = false)
    (hreader : scene.left caller = (Call.isSubscribed user forum (some discussion)).program now)
    (hover : ∀ request next, (scene.after schedule ended).left caller ≠ .ask request next) :
    ∃ answer, (scene.after schedule ended).left caller = .done (.switch answer) ∧
      Resolved (fun moment => (scene.after schedule moment).desk) (· ≤ ended) user forum discussion
        answer := by
  obtain ⟨first, hfirst, second, hsecond, hrest⟩ :=
    program_isSubscribed_uncached user hmode discussion now
  have hstart : (scene.after schedule 0).left caller = .ask (.cache .isEnabled) first :=
    hreader.trans hfirst
  obtain ⟨turn, -, hturn, hleft⟩ := answered_isEnabled hdisabled hstart (Nat.zero_le _) hover
  rw [hsecond] at hleft
  obtain ⟨reading, -, hreading, hleft⟩ := answered hleft hturn hover
  obtain ⟨third, hthird, hlast⟩ :=
    hrest ((scene.after schedule reading).desk.perform (.rows (.follows user forum.id))).1
  rw [hthird] at hleft
  obtain ⟨turn, -, hturn, hleft⟩ := answered_isEnabled hdisabled hleft hreading hover
  rw [hlast] at hleft
  obtain ⟨choosing, -, hchoosing, hleft⟩ := answered hleft hturn hover
  refine ⟨_, stays_done hleft hchoosing, .of_readings hmode hreading.le hchoosing.le rfl⟩

end Scene

/-! ### Both -/

/-- A look-up of a discussion that has come to its end never failed. With a cache, in every
interleaving that clears it less than `2 ^ 64` times, its answer is made of a following and of an
override that were stored from the first write of a call not done at its beginning until its end;
without a cache, of what was stored from its beginning until its end. Where the following was the
same with an override as without one, the answer is what the rows gave at a single moment. -/
theorem lookup_resolves_stored_rows (user : Id) (forum : Forum) (discussion : Id)
    (hmode : forum.subscriptionMode.isOptional = true) (reader : ι) (ended : Nat) :
    (∀ (play : Play ι) (owner : Id → Id) (began : Nat),
      (∀ caller, (play.calls caller).Respects owner) → play.clearings ended < UInt64.size →
      play.calls reader = .isSubscribed user forum (some discussion) →
      (∀ turn < began, play.schedule turn ≠ reader) →
      (∀ request next, (play.moment ended).left reader ≠ .ask request next) →
      ∃ answer, (play.moment ended).left reader = .done (.switch answer) ∧
        Resolved (fun moment => (play.moment moment).desk) (play.Spans owner began ended) user forum
          discussion answer) ∧
    ∀ (scene : Scene ι) (schedule : Nat → ι) (now : Instant), scene.desk.cache.enabled = false →
      scene.left reader = (Call.isSubscribed user forum (some discussion)).program now →
      (∀ request next, (scene.after schedule ended).left reader ≠ .ask request next) →
      ∃ answer, (scene.after schedule ended).left reader = .done (.switch answer) ∧
        Resolved (fun moment => (scene.after schedule moment).desk) (· ≤ ended) user forum discussion
          answer := by
  constructor
  · intro play owner began hrespects hclearings hreader hbegan hover
    exact Play.isSubscribed_resolved hrespects hclearings hmode hreader hbegan hover
  · intro scene schedule now hdisabled hreader hover
    exact Scene.isSubscribed_resolved hmode hdisabled hreader hover

/-- A user with an override subscribes to the whole forum on request, between the two readings of a
look-up. -/
def overtaken : Play Nat where
  calls
    | 1 => .subscribe (.ofNat 7) { id := .ofNat 1, courseId := .ofNat 2 } (some (.ofNat 5)) false
    | 2 => .subscribe (.ofNat 7) { id := .ofNat 1, courseId := .ofNat 2 } none true
    | _ => .isSubscribed (.ofNat 7) { id := .ofNat 1, courseId := .ofNat 2 } (some (.ofNat 5))
  now _ := default
  register := {}
  schedule turn := if turn < 8 then 1 else if turn < 10 then 0 else if turn < 14 then 2 else 0

theorem overtaken_respects (caller : Nat) :
    (overtaken.calls caller).Respects fun _ => .ofNat 1 := by
  unfold overtaken
  dsimp only
  split <;> trivial

/-- The same with no cache, from the beginning of the look-up on. -/
def overtakenUncached : Scene Nat where
  desk := ⟨(Rows.empty.putOverride ⟨.ofNat 7, .ofNat 1, .ofNat 5, .subscribed, default⟩).2, {},
    { enabled := false }⟩
  left caller := (overtaken.calls caller).program default

theorem lookup_resolves_stored_rows_overtaken :
    Resolved (fun moment => (overtaken.moment moment).desk) (overtaken.Spans (fun _ => .ofNat 1) 8 19)
      (.ofNat 7) { id := .ofNat 1, courseId := .ofNat 2 } (.ofNat 5) false ∧
    Resolved (fun moment => (overtakenUncached.after (overtaken.schedule <| 8 + ·) moment).desk)
      (· ≤ 8) (.ofNat 7) { id := .ofNat 1, courseId := .ofNat 2 } (.ofNat 5) false := by
  have hlookup := lookup_resolves_stored_rows (.ofNat 7) { id := .ofNat 1, courseId := .ofNat 2 }
    (.ofNat 5) rfl 0
  have hdone : (overtaken.moment 19).left 0 = .done (.switch false) := rfl
  have hdoneUncached : (overtakenUncached.after (overtaken.schedule <| 8 + ·) 8).left 0 =
      .done (.switch false) := rfl
  obtain ⟨answer, hanswer, hresolved⟩ := (hlookup 19).1 overtaken _ 8 overtaken_respects
    (by decide +kernel) rfl (by decide) (by simp [hdone])
  obtain ⟨other, hother, hresolvedUncached⟩ := (hlookup 8).2 overtakenUncached
    (overtaken.schedule <| 8 + ·) default rfl rfl (by simp [hdoneUncached])
  cases hdone.symm.trans hanswer
  cases hdoneUncached.symm.trans hother
  exact ⟨hresolved, hresolvedUncached⟩

/-- No other call is under way when the look-up begins, the rows give a subscription from then on
until the look-up ends, and yet it answers that there is none. -/
theorem overtaken_lookup_denies :
    (∀ turn < 8, overtaken.schedule turn ≠ 0 ∧ overtaken.Finished 8 (overtaken.schedule turn)) ∧
    (∀ moment ≤ 19, 8 ≤ moment → (overtaken.moment moment).desk.rows.isSubscribed
      overtaken.register (.ofNat 7) { id := .ofNat 1, courseId := .ofNat 2 }
        (some (.ofNat 5)) = true) ∧
    (overtaken.moment 19).left 0 = .done (.switch false) := by
  refine ⟨fun turn hturn => ?_, by decide +kernel, rfl⟩
  have hcaller : overtaken.schedule turn = 1 := if_pos hturn
  rw [hcaller]
  exact ⟨by decide, .switch true, rfl⟩

end DiscussionBoard.Subscription
