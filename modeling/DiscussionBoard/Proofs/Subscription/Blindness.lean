import DiscussionBoard.Proofs.Subscription.Readings

/-!
# Modes without a choice

Where all are subscribed by force, and where nobody can subscribe, look-ups ask the register and
nothing else. They cannot tell apart desks with the same register, and leave no trace for the time
when the mode is optional again.
-/

namespace DiscussionBoard.Subscription

/-- A look-up in a forum whose mode leaves no choice. -/
def Call.IsBlind (call : Call) : Prop :=
  ∃ forum, call.lookedUp = some forum ∧
    (forum.subscriptionMode = .forced ∨ forum.subscriptionMode = .disallowed)

def Request.IsRegister : Request → Prop
  | .register _ => True
  | .rows _ | .cache _ => False

/-! ### What is asked -/

theorem asksRegister_allowedAmong (forum : Id) (users : List Id) :
    (allowedAmong forum users).AsksOnly Request.IsRegister := by
  induction users with
  | nil => trivial
  | cons user rest ih => exact ⟨trivial, fun allowed => ih.bind fun _ => trivial⟩

section Modes

variable {forum : Forum}
  (hmode : forum.subscriptionMode = .forced ∨ forum.subscriptionMode = .disallowed)
include hmode

theorem isOptional_of_closed : ¬forum.subscriptionMode.isOptional = true := by
  rcases hmode with hmode | hmode <;> rw [hmode] <;> exact Bool.false_ne_true

theorem asksRegister_forumLevel (user : Id) :
    (forumLevel user forum).AsksOnly Request.IsRegister := by
  unfold forumLevel
  rcases hmode with hmode | hmode <;> rw [hmode]
  · exact ⟨trivial, fun allowed => trivial⟩
  · trivial

theorem asksRegister_isSubscribed (user : Id) (discussion : Option Id) :
    (isSubscribed user forum discussion).AsksOnly Request.IsRegister := by
  apply (asksRegister_forumLevel hmode user).bind
  intro inherited
  cases discussion with
  | none => trivial
  | some discussion =>
      dsimp only
      rw [if_neg (isOptional_of_closed hmode)]
      trivial

theorem asksRegister_subscribers : (subscribers forum).AsksOnly Request.IsRegister := by
  unfold subscribers
  rcases hmode with hmode | hmode <;> rw [hmode]
  · refine ⟨trivial, fun enrolled => ?_⟩
    exact (asksRegister_allowedAmong forum.id enrolled).bind fun _ => trivial
  · trivial

theorem asksRegister_discussionSubscribers (discussion : Id) :
    (discussionSubscribers forum discussion).AsksOnly Request.IsRegister := by
  rw [discussionSubscribers, if_neg (isOptional_of_closed hmode)]
  exact asksRegister_subscribers hmode

end Modes

theorem Call.IsBlind.asksRegister {call : Call} (hcall : call.IsBlind) (now : Instant) :
    (call.program now).AsksOnly Request.IsRegister := by
  obtain ⟨forum, hforum, hmode⟩ := hcall
  cases call with
  | isSubscribed user _ discussion =>
      cases hforum
      exact (asksRegister_isSubscribed hmode user discussion).map _
  | subscribers _ =>
      cases hforum
      exact (asksRegister_subscribers hmode).map _
  | discussionSubscribers _ discussion =>
      cases hforum
      exact (asksRegister_discussionSubscribers hmode discussion).map _
  | subscribe | unsubscribe | overridesOf | enrolled | unenrolled | eraseUser | eraseForum
  | resetCache => cases hforum

/-! ### What is told -/

theorem Call.IsBlind.run {call : Call} (hcall : call.IsBlind) (now : Instant) {desk other : Desk}
    (hregister : desk.register = other.register) :
    ∃ reply, desk.run (call.program now) = (.ok reply, desk) ∧
      other.run (call.program now) = (.ok reply, other) := by
  apply (hcall.asksRegister now).run_eq
  all_goals
    intro request hrequest
    cases request with
    | rows request => exact hrequest.elim
    | cache request => exact hrequest.elim
    | register request => ?_
  · rfl
  · rfl
  · exact congrArg (answerFromRegister · request) hregister

theorem Desk.runAll_of_isBlind (desk : Desk) {detour : List (Instant × Call)}
    (hdetour : ∀ step ∈ detour, step.2.IsBlind) : (desk.runAll detour).2 = desk := by
  induction detour with
  | nil => rfl
  | cons step rest ih =>
      obtain ⟨hfirst, hrest⟩ := List.forall_mem_cons.mp hdetour
      obtain ⟨reply, hrun, -⟩ := hfirst.run step.1 (rfl : desk.register = desk.register)
      rw [Desk.runAll, hrun]
      exact ih hrest

/-- Without a choice the stored choices make no difference: look-ups in such modes reply the same on
any two desks with the same register, ask neither storage nor cache and change nothing. Whatever was
asked before any number of them gets the same replies after them. -/
theorem blind_lookups :
    (∀ (call : Call) (now : Instant), call.IsBlind →
      (call.program now).AsksOnly Request.IsRegister ∧
      ∀ desk other : Desk, desk.register = other.register →
        ∃ reply, desk.run (call.program now) = (.ok reply, desk) ∧
          other.run (call.program now) = (.ok reply, other)) ∧
    ∀ (desk : Desk) (questions detour : List (Instant × Call)),
      (∀ question ∈ questions, question.2.lookedUp.isSome = true) →
      (∀ step ∈ detour, step.2.IsBlind) →
      let asked := desk.runAll questions
      let back := asked.2.runAll detour
      back.2 = asked.2 ∧ (back.2.runAll questions).1 = asked.1 ∧
        ∀ reply ∈ asked.1, ∃ value, reply = .ok value := by
  refine ⟨fun call now hcall => ⟨hcall.asksRegister now, fun desk other => hcall.run now⟩, ?_⟩
  intro desk questions detour hquestions hdetour asked back
  have hback : back.2 = asked.2 := asked.2.runAll_of_isBlind hdetour
  -- The questions themselves may fill the cache, which later questions do not notice.
  obtain ⟨replies, hreplies⟩ := runAll_of_lookedUp desk questions hquestions
  obtain ⟨hasked, hlike⟩ := hreplies desk (.refl desk)
  obtain ⟨hagain, -⟩ := hreplies asked.2 hlike
  refine ⟨hback, ?_, fun reply hreply => ?_⟩
  · rw [hback]
    exact hagain.trans hasked.symm
  · rw [hasked] at hreply
    obtain ⟨value, -, rfl⟩ := List.mem_map.mp hreply
    exact ⟨value, rfl⟩

theorem blind_lookups_of_leftovers :
    let place (mode : SubscriptionMode) : Forum :=
      { id := .ofNat 1, courseId := .ofNat 2, subscriptionMode := mode }
    let stored := (Rows.empty.putOverride ⟨.ofNat 7, .ofNat 1, .ofNat 5, .unsubscribed, default⟩).2
    -- The cache is wrong: nobody follows the forum.
    let wrong : Cache := { enabled := true, followers := .ofList [(.ofNat 1, .ofList [.ofNat 7])] }
    let leftovers : Desk := ⟨stored, {}, wrong⟩
    let clean : Desk := ⟨.empty, {}, { enabled := false }⟩
    let forced := Call.isSubscribed (.ofNat 7) (place .forced) (some (.ofNat 5))
    let questions := [(default, Call.isSubscribed (.ofNat 7) (place .choose) (some (.ofNat 5))),
      (default, Call.subscribers (place .choose))]
    let asked := leftovers.runAll questions
    let back := asked.2.runAll [(default, forced), (default, .subscribers (place .disallowed))]
    (∃ reply, leftovers.run (forced.program default) = (.ok reply, leftovers) ∧
      clean.run (forced.program default) = (.ok reply, clean)) ∧
    asked.1.map Except.toOption = [some (.switch false), some (.users [.ofNat 7])] ∧
    back.1.map Except.toOption = [some (.switch true), some (.users [])] ∧
    (back.2.runAll questions).1 = asked.1 := by
  intro place stored wrong leftovers clean forced questions asked back
  have hforced : forced.IsBlind := ⟨place .forced, rfl, .inl rfl⟩
  have hclosed : (Call.subscribers (place .disallowed)).IsBlind := ⟨_, rfl, .inr rfl⟩
  have hback := blind_lookups.2 leftovers questions
    [(default, forced), (default, .subscribers (place .disallowed))]
    (by simp [questions, Call.lookedUp]) (by simp [hforced, hclosed])
  exact ⟨(blind_lookups.1 forced default hforced).2 leftovers clean rfl, by decide +kernel,
    by decide +kernel, hback.2.1⟩

end DiscussionBoard.Subscription
