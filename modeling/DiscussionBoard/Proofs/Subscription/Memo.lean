import DiscussionBoard.Proofs.Discipline
import DiscussionBoard.Proofs.Subscription.Call
import DiscussionBoard.Proofs.Subscription.Slot

/-!
# What a call keeps in mind

A memo follows a call: the ticket it holds, the slot it read under that ticket, all that it came to
know of slots, and the slots that it has changed and not yet cleared in the cache. Every call keeps
only what it read under its ticket, and clears before it ends whatever it changed.
-/

namespace DiscussionBoard.Subscription

structure Memo where
  ticket : Option UInt64 := none
  /-- What was read from storage since the ticket was taken. -/
  reading : Option Reading := none
  known : List Reading := []
  /-- The slots changed and not yet cleared. -/
  dirty : Slot → Prop := fun _ => False

namespace Memo

/-- What was read holds no longer once the call writes, and a ticket holds no longer once it
clears. -/
def learn (owner : Id → Id) : (request : Request) → Answer request → Memo → Memo
  | .rows (.followersOf forum), users, memo =>
    let reading : Reading := ⟨.followers forum, KeySet.ofList users⟩
    { memo with reading := some reading, known := reading :: memo.known }
  | .rows (.overridesOf user forum), choices, memo =>
    let reading : Reading := ⟨.choices user forum, Table.ofList choices⟩
    { memo with reading := some reading, known := reading :: memo.known }
  | .rows request, _, memo =>
    { memo with
      reading := none, dirty := fun slot => memo.dirty slot ∨ request.Touches owner slot }
  | .register _, _, memo => memo
  | .cache .generation, ticket, memo => { memo with ticket := some ticket, reading := none }
  | .cache (.followersOf forum), found, memo =>
    { memo with known := (found.map fun users => ⟨.followers forum, users⟩).toList ++ memo.known }
  | .cache (.overridesOf user forum), found, memo =>
    { memo with
      known := (found.map fun choices => ⟨.choices user forum, choices⟩).toList ++ memo.known }
  | .cache (.invalidate scope), _, memo =>
    { memo with
      ticket := none, reading := none
      dirty := fun slot => memo.dirty slot ∧ scope.covers slot = false }
  | .cache .reset, _, memo =>
    { memo with ticket := none, reading := none, dirty := fun _ => False }
  | .cache .isEnabled, _, memo => memo
  | .cache (.keepFollowers _ _ _), _, memo => memo
  | .cache (.keepOverrides _ _ _ _), _, memo => memo

variable {owner : Id → Id} {request : Request} {memo : Memo} {desk : Desk} {slot : Slot}
  {value : slot.Value}

theorem dirty_learn (answer : Answer request) :
    (memo.learn owner request answer).dirty slot ↔
      memo.dirty slot ∧ request.clears slot = false ∨ request.Touches owner slot := by
  cases request with
  | rows request => cases request <;> simp [learn, Request.clears, Request.Touches, RowRequest.Touches]
  | register request => simp [learn, Request.clears, Request.Touches]
  | cache request => cases request <;> simp [learn, Request.clears, Request.Touches]

theorem ticket_learn {ticket : UInt64}
    (h : (memo.learn owner request (desk.perform request).1).ticket = some ticket) :
    ticket = desk.cache.generation ∨ memo.ticket = some ticket := by
  cases request with
  | rows request => cases request <;> exact .inr h
  | register request => exact .inr h
  | cache request =>
      cases request
      case generation => exact .inl (Option.some.inj h).symm
      case invalidate | reset => cases h
      all_goals exact .inr h

/-- A call has read what is stored at the moment, or what it read before under the same ticket. -/
theorem reading_learn
    (h : (memo.learn owner request (desk.perform request).1).reading = some ⟨slot, value⟩) :
    request.isClearing = false ∧ ¬request.Touches owner slot ∧
      (value = desk.rows.at slot ∨ memo.reading = some ⟨slot, value⟩ ∧
        (memo.learn owner request (desk.perform request).1).ticket = memo.ticket) := by
  cases request with
  | rows request =>
      cases request
      case followersOf | overridesOf =>
          cases h
          exact ⟨rfl, id, .inl rfl⟩
      all_goals cases h
  | register request => exact ⟨rfl, id, .inr ⟨h, rfl⟩⟩
  | cache request =>
      cases request
      case generation | invalidate | reset => cases h
      all_goals exact ⟨rfl, id, .inr ⟨h, rfl⟩⟩

/-- A call comes to know a slot from storage or from the cache. -/
theorem known_learn
    (h : ⟨slot, value⟩ ∈ (memo.learn owner request (desk.perform request).1).known) :
    ⟨slot, value⟩ ∈ memo.known ∨ value = desk.rows.at slot ∨ desk.cache.at? slot = some value := by
  cases request with
  | rows request =>
      cases request
      case followersOf | overridesOf =>
          refine (List.mem_cons.mp h).symm.imp_right fun h => .inl ?_
          cases h
          rfl
      all_goals exact .inl h
  | register request => exact .inl h
  | cache request =>
      cases request
      case followersOf | overridesOf =>
          refine (List.mem_append.mp h).symm.imp_right fun h => .inr ?_
          obtain ⟨found, hfound, h⟩ := Option.map_eq_some_iff.mp (Option.mem_toList.mp h)
          cases h
          exact hfound
      all_goals exact .inl h

end Memo

/-- The rules of all calls. Requests that can fail are made only while every slot that is changed
and not yet cleared is tolerated to be so. -/
def rules (owner : Id → Id) (enabled : Bool) (tolerated : Slot → Prop) :
    Program.Rules signature Memo where
  allows
    | .rows request, memo =>
      request.Respects owner ∧ ∀ slot, memo.dirty slot → tolerated slot
    | .register _, memo => ∀ slot, memo.dirty slot → tolerated slot
    | .cache (.keepFollowers forum users ticket), memo =>
      memo.ticket = some ticket ∧ memo.reading = some ⟨.followers forum, users⟩
    | .cache (.keepOverrides user forum choices ticket), memo =>
      memo.ticket = some ticket ∧ memo.reading = some ⟨.choices user forum, choices⟩
    | .cache _, _ => True
  expects
    | .cache .isEnabled, answer => answer = enabled
    | _, _ => True
  learn := Memo.learn owner

variable {owner : Id → Id} {enabled : Bool} {tolerated : Slot → Prop} {memo : Memo}

theorem respects_of_allowed {request : Request}
    (hallows : (rules owner enabled tolerated).allows request memo) : request.Respects owner := by
  cases request with
  | rows request => exact hallows.1
  | register request => trivial
  | cache request => trivial

theorem expects_perform {desk : Desk} (henabled : desk.cache.enabled = enabled)
    (request : Request) :
    (rules owner enabled tolerated).expects request (desk.perform request).1 := by
  cases request with
  | rows request => trivial
  | register request => trivial
  | cache request =>
      cases request
      case isEnabled => exact henabled
      all_goals trivial

/-- What is in the cache was there before, or is what the call read under the present ticket. -/
theorem cached_of_allowed {request : Request} {desk : Desk} {slot : Slot} {value : slot.Value}
    (hallows : (rules owner enabled tolerated).allows request memo)
    (h : (desk.perform request).2.cache.at? slot = some value) :
    request.clears slot = false ∧ (desk.cache.at? slot = some value ∨
      memo.ticket = some desk.cache.generation ∧ memo.reading = some ⟨slot, value⟩) := by
  have hkept : ∀ {ticket : UInt64} {reading : Reading}, desk.cache.accepts ticket = true →
      (⟨slot, value⟩ : Reading) = reading →
      memo.ticket = some ticket ∧ memo.reading = some reading →
      memo.ticket = some desk.cache.generation ∧ memo.reading = some ⟨slot, value⟩ := by
    rintro ticket _ haccepts rfl ⟨hticket, hreading⟩
    -- The cache accepts the ticket of its present generation only.
    have hgeneration : desk.cache.generation = ticket := by
      simpa using (Bool.and_eq_true_iff.mp haccepts).2
    rw [hgeneration]
    exact ⟨hticket, hreading⟩
  cases request with
  | rows request => exact ⟨rfl, .inl h⟩
  | register request => exact ⟨rfl, .inl h⟩
  | cache request =>
      cases request with
      | isEnabled | generation | followersOf | overridesOf => exact ⟨rfl, .inl h⟩
      | keepFollowers forum users ticket =>
          refine ⟨rfl, (Cache.at?_keepFollowers h).symm.imp_right ?_⟩
          exact fun hnew => hkept hnew.1 hnew.2 hallows
      | keepOverrides user forum choices ticket =>
          refine ⟨rfl, (Cache.at?_keepOverrides h).symm.imp_right ?_⟩
          exact fun hnew => hkept hnew.1 hnew.2 hallows
      | invalidate scope => exact (Cache.at?_invalidate.mp h).imp_right .inl
      | reset => cases Cache.at?_reset.symm.trans h

/-- Slots that a call may leave changed and not cleared when one of its requests fails. -/
def Call.Risks : Call → Slot → Prop
  | .subscribe _ forum none true, slot | .unsubscribe _ forum none true, slot =>
    slot = .followers forum.id
  | .unenrolled _ forums, slot => ∃ forum ∈ forums, slot = .followers forum.id
  | _, _ => False

theorem Call.Risks.followers {call : Call} {slot : Slot} (h : call.Risks slot) :
    ∃ forum, slot = .followers forum := by
  unfold Call.Risks at h
  split at h
  · exact ⟨_, h⟩
  · exact ⟨_, h⟩
  · obtain ⟨forum, -, rfl⟩ := h
    exact ⟨forum.id, rfl⟩
  · exact h.elim

/-- The look-ups of a single slot, and how each tells the slot's value. -/
inductive Call.Reads : Call → (slot : Slot) → (slot.Value → Reply) → Prop
  | isSubscribed (user : Id) (forum : Forum) (hmode : forum.subscriptionMode.isOptional = true) :
    Reads (.isSubscribed user forum none) (.followers forum.id)
      fun users => .switch (Table.contains users user)
  | subscribers (forum : Forum) (hmode : forum.subscriptionMode.isOptional = true) :
    Reads (.subscribers forum) (.followers forum.id) fun users => .users (KeySet.toList users)
  | overridesOf (user forum : Id) :
    Reads (.overridesOf user forum) (.choices user forum) fun choices => .choices choices

/-! ### Look-ups -/

/-- A look-up leaves no slot changed and forgets nothing. -/
structure Memo.Extends (memo after : Memo) : Prop where
  dirty : after.dirty = memo.dirty
  known : memo.known ⊆ after.known

theorem Memo.Extends.refl (memo : Memo) : memo.Extends memo :=
  ⟨rfl, List.Subset.refl _⟩

theorem Memo.Extends.trans {middle after : Memo} (hfirst : memo.Extends middle)
    (hsecond : middle.Extends after) : memo.Extends after where
  dirty := hsecond.dirty.trans hfirst.dirty
  known := List.Subset.trans hfirst.known hsecond.known

theorem Memo.Extends.dirty_tolerated {after : Memo} (hafter : memo.Extends after)
    (htolerated : ∀ slot, memo.dirty slot → tolerated slot) :
    ∀ slot, after.dirty slot → tolerated slot := by
  rw [hafter.dirty]
  exact htolerated

theorem obeys_followersOf (htolerated : ∀ slot, memo.dirty slot → tolerated slot) (forum : Id) :
    (followersOf forum).Obeys (rules owner enabled tolerated)
      (fun after users => memo.Extends after ∧ ⟨.followers forum, users⟩ ∈ after.known) memo := by
  refine ⟨trivial, fun found _ => ?_⟩
  cases found with
  | some hit => exact ⟨⟨rfl, by simp [rules, Memo.learn]⟩, by simp [rules, Memo.learn]⟩
  | none =>
      refine ⟨trivial, fun ticket _ => ⟨⟨trivial, htolerated⟩, fun stored _ => ?_⟩⟩
      exact ⟨⟨rfl, rfl⟩, fun _ _ => ⟨⟨rfl, by simp [rules, Memo.learn]⟩, by simp [rules, Memo.learn]⟩⟩

theorem obeys_overridesOf (htolerated : ∀ slot, memo.dirty slot → tolerated slot)
    (user forum : Id) :
    (overridesOf user forum).Obeys (rules owner enabled tolerated)
      (fun after choices => memo.Extends after ∧ ⟨.choices user forum, choices⟩ ∈ after.known)
      memo := by
  refine ⟨trivial, fun found _ => ?_⟩
  cases found with
  | some hit => exact ⟨⟨rfl, by simp [rules, Memo.learn]⟩, by simp [rules, Memo.learn]⟩
  | none =>
      refine ⟨trivial, fun ticket _ => ⟨⟨trivial, htolerated⟩, fun stored _ => ?_⟩⟩
      exact ⟨⟨rfl, rfl⟩, fun _ _ => ⟨⟨rfl, by simp [rules, Memo.learn]⟩, by simp [rules, Memo.learn]⟩⟩

theorem obeys_forumLevel (htolerated : ∀ slot, memo.dirty slot → tolerated slot) (user : Id)
    (forum : Forum) :
    (forumLevel user forum).Obeys (rules owner enabled tolerated)
      (fun after inherited => memo.Extends after ∧
        (forum.subscriptionMode.isOptional = true → enabled = true →
          ∃ users : KeySet Id, ⟨.followers forum.id, users⟩ ∈ after.known ∧
            inherited = users.contains user)) memo := by
  by_cases hmode : forum.subscriptionMode.isOptional = true
  · rw [forumLevel_of_isOptional hmode]
    refine ⟨trivial, fun answer hanswer => ?_⟩
    obtain rfl : answer = enabled := hanswer
    cases answer with
    | true =>
        apply (obeys_followersOf htolerated forum.id).bind
        intro after users hafter
        exact ⟨hafter.1, fun _ _ => ⟨users, hafter.2, rfl⟩⟩
    | false =>
        refine ⟨⟨trivial, htolerated⟩, fun follows _ => ⟨⟨?_, fun _ h => h⟩, fun _ h => ?_⟩⟩
        · simp [rules, Memo.learn, RowRequest.Touches]
        · cases h
  · unfold forumLevel
    cases hforum : forum.subscriptionMode with
    | forced =>
        rw [hforum] at hmode
        exact ⟨htolerated, fun _ _ => ⟨.refl memo, fun h => (hmode h).elim⟩⟩
    | disallowed =>
        rw [hforum] at hmode
        exact ⟨.refl memo, fun h => (hmode h).elim⟩
    | choose | initial => simp [hforum, SubscriptionMode.isOptional] at hmode

theorem obeys_storedPreference (htolerated : ∀ slot, memo.dirty slot → tolerated slot)
    (user discussion : Id) :
    (storedPreference user discussion).Obeys (rules owner enabled tolerated)
      (fun after _ => memo.Extends after) memo := by
  refine ⟨⟨trivial, htolerated⟩, fun override _ => ⟨?_, fun _ h => h⟩⟩
  simp [rules, Memo.learn, RowRequest.Touches]

theorem obeys_preference (htolerated : ∀ slot, memo.dirty slot → tolerated slot)
    (user forum discussion : Id) :
    (preference user forum discussion).Obeys (rules owner enabled tolerated)
      (fun after _ => memo.Extends after) memo := by
  refine ⟨trivial, fun answer _ => ?_⟩
  cases answer with
  | true => exact (obeys_overridesOf htolerated user forum).bind fun _ _ hafter => hafter.1
  | false => exact obeys_storedPreference htolerated user discussion

theorem obeys_isSubscribed (htolerated : ∀ slot, memo.dirty slot → tolerated slot) (user : Id)
    (forum : Forum) (discussion : Option Id) :
    (isSubscribed user forum discussion).Obeys (rules owner enabled tolerated)
      (fun after answer => memo.Extends after ∧
        (discussion = none → forum.subscriptionMode.isOptional = true → enabled = true →
          ∃ users : KeySet Id, ⟨.followers forum.id, users⟩ ∈ after.known ∧
            answer = users.contains user)) memo := by
  apply (obeys_forumLevel htolerated user forum).bind
  intro after inherited hafter
  cases discussion with
  | none => exact ⟨hafter.1, fun _ => hafter.2⟩
  | some discussion =>
      dsimp only
      split
      · apply (obeys_preference (hafter.1.dirty_tolerated htolerated) user forum.id
          discussion).bind
        intro last own hlast
        exact ⟨hafter.1.trans hlast, nofun⟩
      · exact ⟨hafter.1, nofun⟩

theorem obeys_allowedAmong (htolerated : ∀ slot, memo.dirty slot → tolerated slot) (forum : Id)
    (users : List Id) :
    (allowedAmong forum users).Obeys (rules owner enabled tolerated)
      (fun after _ => memo.Extends after) memo := by
  induction users with
  | nil => exact .refl memo
  | cons user rest ih => exact ⟨htolerated, fun allowed _ => ih.bind fun _ _ hafter => hafter⟩

theorem obeys_subscribers (htolerated : ∀ slot, memo.dirty slot → tolerated slot)
    (forum : Forum) :
    (subscribers forum).Obeys (rules owner enabled tolerated)
      (fun after answer => memo.Extends after ∧
        (forum.subscriptionMode.isOptional = true →
          ∃ users : KeySet Id, ⟨.followers forum.id, users⟩ ∈ after.known ∧
            answer = users.toList)) memo := by
  by_cases hmode : forum.subscriptionMode.isOptional = true
  · rw [subscribers_of_isOptional hmode]
    apply (obeys_followersOf htolerated forum.id).bind
    intro after users hafter
    exact ⟨hafter.1, fun _ => ⟨users, hafter.2, rfl⟩⟩
  · unfold subscribers
    cases hforum : forum.subscriptionMode with
    | forced =>
        refine ⟨htolerated, fun enrolled _ => ?_⟩
        exact (obeys_allowedAmong htolerated forum.id enrolled).bind fun _ _ hafter =>
          ⟨hafter, nofun⟩
    | disallowed => exact ⟨.refl memo, nofun⟩
    | choose | initial => simp [hforum, SubscriptionMode.isOptional] at hmode

theorem obeys_discussionSubscribers (htolerated : ∀ slot, memo.dirty slot → tolerated slot)
    (forum : Forum) (discussion : Id) :
    (discussionSubscribers forum discussion).Obeys (rules owner enabled tolerated)
      (fun after _ => memo.Extends after) memo := by
  unfold discussionSubscribers
  split
  · apply (obeys_followersOf htolerated forum.id).bind
    intro after users hafter
    refine ⟨⟨trivial, hafter.1.dirty_tolerated htolerated⟩, fun choices _ => ⟨?_, hafter.1.known⟩⟩
    simpa [rules, Memo.learn, RowRequest.Touches] using hafter.1.dirty
  · exact (obeys_subscribers htolerated forum).mono fun _ _ hafter => hafter.1

end DiscussionBoard.Subscription
