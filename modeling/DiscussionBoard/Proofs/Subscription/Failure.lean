import DiscussionBoard.Proofs.Subscription.Outcome

/-!
# Calls that fail

A request to the rows or to the register can fail, and then changes nothing and ends the call. Most
calls leave the cache coherent however they end, and no call leaves a stale choice.
-/

namespace DiscussionBoard.Subscription

/-- Whether a request goes out of the process, and so can fail. -/
def Request.isPort : Request → Bool
  | .rows _ | .register _ => true
  | .cache _ => false

/-- Answers one request, where `fails` tells for each request to a port, in their order, whether it
fails. -/
def Desk.attempt (fails : Nat → Option Fault) (request : Request) :
    StateM (Desk × Nat) (Except Fault (Answer request)) := fun (desk, made) =>
  match if request.isPort then fails made else none with
  | some fault => (.error fault, desk, made + 1)
  | none =>
    (.ok (desk.perform request).1, (desk.perform request).2,
      if request.isPort then made + 1 else made)

/-- Runs a program on a desk where requests can fail. -/
def Desk.runFailing {α : Type} (desk : Desk) (fails : Nat → Option Fault) (made : Nat)
    (program : Program signature α) : Except Fault α × Desk × Nat :=
  Program.interpret (Desk.attempt fails) program (desk, made)

section Run

variable {α β : Type} {fails : Nat → Option Fault} {made : Nat} {desk : Desk}

theorem runFailing_bind (program : Program signature α) (rest : α → Program signature β) :
    desk.runFailing fails made (program >>= rest) =
      match desk.runFailing fails made program with
      | (.ok value, desk, made) => desk.runFailing fails made (rest value)
      | (.error fault, desk, made) => (.error fault, desk, made) := by
  refine (Program.interpret_bind _ program rest (desk, made)).trans ?_
  rw [Desk.runFailing]
  rcases Program.interpret (Desk.attempt fails) program (desk, made) with ⟨fault | value, _, _⟩ <;> rfl

theorem runFailing_askRows (request : RowRequest) (rest : request.Answer → Program signature α) :
    desk.runFailing fails made (askRows request >>= rest) =
      match fails made with
      | some fault => (.error fault, desk, made + 1)
      | none =>
        Desk.runFailing { desk with rows := (Rows.perform request desk.rows).2 } fails (made + 1)
          (rest (Rows.perform request desk.rows).1) := by
  refine (Program.interpret_ask _ _ _ (desk, made)).trans ?_
  simp only [Desk.attempt, Request.isPort, if_true]
  cases fails made <;> rfl

theorem runFailing_askCache (request : CacheRequest) (rest : request.Answer → Program signature α) :
    desk.runFailing fails made (askCache request >>= rest) =
      Desk.runFailing { desk with cache := (Cache.perform request desk.cache).2 } fails made
        (rest (Cache.perform request desk.cache).1) :=
  Program.interpret_ask _ _ _ (desk, made)

theorem runFailing_pure (value : α) :
    desk.runFailing fails made (pure value) = (.ok value, desk, made) := rfl

theorem runFailing_invalidate (scope : Scope) (rest : Unit → Program signature α) :
    desk.runFailing fails made (invalidate scope >>= rest) =
      Desk.runFailing { desk with cache := desk.cache.invalidate scope } fails made (rest ()) :=
  runFailing_askCache (.invalidate scope) rest

/-- Two requests to the rows: either fails, or the rest is run. -/
theorem runFailing_askRows_askRows (desk : Desk) (fails : Nat → Option Fault) (made : Nat)
    (first second : RowRequest)
    (rest : first.Answer → second.Answer → Program signature α) :
    (desk.runFailing fails made
      (askRows first >>= fun answer => askRows second >>= rest answer)).2.1 =
      if (fails made).isSome then desk
      else if (fails (made + 1)).isSome then
        { desk with rows := (Rows.perform first desk.rows).2 }
      else
        (Desk.runFailing
          { desk with rows := (Rows.perform second (Rows.perform first desk.rows).2).2 } fails
          (made + 2) (rest (Rows.perform first desk.rows).1
            (Rows.perform second (Rows.perform first desk.rows).2).1)).2.1 := by
  rw [runFailing_askRows]
  cases fails made with
  | some fault => rfl
  | none =>
      simp only [Option.isSome_none, Bool.false_eq_true, if_false]
      rw [runFailing_askRows]
      cases fails (made + 1) with
      | some fault => rfl
      | none => rfl

theorem runFailing_bind_pure (program : Program signature α) (f : α → β) :
    (desk.runFailing fails made (program >>= fun value => pure (f value))).2 =
      (desk.runFailing fails made program).2 := by
  rw [runFailing_bind]
  rcases desk.runFailing fails made program with ⟨fault | value, _, _⟩ <;> rfl

section Ask

variable {request : Request} (desk : Desk) (next : Answer request → Program signature α)

theorem runFailing_ask_of_none (h : (if request.isPort then fails made else none) = none) :
    desk.runFailing fails made (.ask request next) =
      (desk.perform request).2.runFailing fails (if request.isPort then made + 1 else made)
        (next (desk.perform request).1) := by
  refine (Program.interpret_ask _ _ _ (desk, made)).trans ?_
  rw [Desk.attempt, h]
  rfl

theorem runFailing_ask_of_some {fault : Fault}
    (h : (if request.isPort then fails made else none) = some fault) :
    desk.runFailing fails made (.ask request next) = (.error fault, desk, made + 1) := by
  refine (Program.interpret_ask _ _ _ (desk, made)).trans ?_
  rw [Desk.attempt, h]

end Ask

/-- What every request that a program may make keeps, is kept however the program ends. -/
theorem runFailing_keeps {allowed : Request → Prop} {program : Program signature α}
    (hprogram : program.MayAsk allowed) (inv : Desk → Prop)
    (hstep : ∀ request desk, allowed request → inv desk → inv (desk.perform request).2)
    (hinv : inv desk) : inv (desk.runFailing fails made program).2.1 := by
  have hattempt : ∀ (request : Request) (state : Desk × Nat), allowed request → inv state.1 →
      inv (Desk.attempt fails request state).2.1 := by
    rintro request ⟨desk, made⟩ hallowed hstate
    rw [Desk.attempt]
    split
    · exact hstate
    · exact hstep request desk hallowed hstate
  exact hprogram.interpret_keeps (fun state : Desk × Nat => inv state.1) hattempt hinv

theorem register_perform (request : Request) (desk : Desk) :
    (desk.perform request).2.register = desk.register := by
  cases request with
  | rows | register | cache => rfl

theorem register_runFailing (program : Program signature α) :
    (desk.runFailing fails made program).2.1.register = desk.register := by
  refine runFailing_keeps program.mayAsk (fun other => other.register = desk.register) ?_ rfl
  intro request other _ hother
  rw [register_perform, hother]

/-- A program whose requests do not fail is run as if none could. -/
theorem runFailing_eq_run {program : Program signature α}
    (hprogram : program.MayAsk fun request : Request =>
      request.isPort = true → ∀ made, fails made = none) :
    (desk.runFailing fails made program).1 = (desk.run program).1 ∧
      (desk.runFailing fails made program).2.1 = (desk.run program).2 := by
  induction program generalizing desk made with
  | done value => exact ⟨rfl, rfl⟩
  | fail fault => exact ⟨rfl, rfl⟩
  | ask request next ih =>
      obtain ⟨hrequest, hnext⟩ := hprogram
      have hrun := runFailing_ask_of_none desk next
        (ite_eq_right_iff.mpr fun hport => hrequest hport made)
      obtain ⟨hvalue, hdesk⟩ := ih _ (hnext (desk.perform request).1)
      exact ⟨(congrArg (·.1) hrun).trans hvalue, (congrArg (·.2.1) hrun).trans hdesk⟩

end Run

variable {owner : Id → Id} {stale : Slot → Prop} {fails : Nat → Option Fault} {made : Nat}
  {desk : Desk}

/-! ### What a failed call can leave -/

/-- A call leaves no slot stale that was not, except for those that it risks. -/
theorem runFailing_program (hcoherent : desk.CoherentExcept stale) (howned : desk.rows.Owned owner)
    (now : Instant) {call : Call} (hrespects : call.Respects owner) :
    (desk.runFailing fails made (call.program now)).2.1.rows.Owned owner ∧
      (desk.runFailing fails made (call.program now)).2.1.CoherentExcept
        fun slot => stale slot ∨ call.Risks slot := by
  have hobeys : (call.program now).Obeys (rules owner desk.cache.enabled call.Risks)
      (call.Ends desk.cache.enabled {}) {} :=
    obeys_program now hrespects (fun _ h => h.elim) fun _ h => h
  have hweaker : ∀ {memo : Memo} {desk' : Desk}, (∀ slot, memo.dirty slot → call.Risks slot) →
      memo.Fits owner desk.cache.enabled stale desk' →
      desk'.CoherentExcept fun slot => stale slot ∨ call.Risks slot :=
    fun htolerated hfits slot value hclean => hfits.coherent slot value
      fun h => hclean (h.imp_right (htolerated slot))
  have hstart : ({} : Memo).Fits owner desk.cache.enabled stale (desk, made).1 :=
    Memo.Fits.start hcoherent howned
  have hend := hobeys.interpret (Desk.attempt fails)
    (fun memo state => memo.Fits owner desk.cache.enabled stale state.1)
    (fun state => state.1.rows.Owned owner ∧
      state.1.CoherentExcept fun slot => stale slot ∨ call.Risks slot)
    (fun request memo state hallows hfits => ?_) hstart
  · rw [Desk.runFailing]
    revert hend
    rcases Program.interpret (Desk.attempt fails) (call.program now) (desk, made) with
      ⟨fault | reply, desk', made'⟩
    · exact id
    · rintro ⟨memo, hends, hfits⟩
      exact ⟨hfits.owned, hweaker (fun slot h => (hends.tidies slot h).elim) hfits⟩
  · obtain ⟨desk', made'⟩ := state
    cases request with
    | cache request => exact hfits.perform hallows
    | rows request =>
        simp only [Desk.attempt, Request.isPort, if_true]
        cases fails made' with
        | none => exact hfits.perform hallows
        | some fault => exact ⟨hfits.owned, hweaker hallows.2 hfits⟩
    | register request =>
        simp only [Desk.attempt, Request.isPort, if_true]
        cases fails made' with
        | none => exact hfits.perform hallows
        | some fault => exact ⟨hfits.owned, hweaker hallows hfits⟩

theorem runFailing_coherent_of_riskless (hcoherent : desk.Coherent) (howned : desk.rows.Owned owner)
    (now : Instant) {call : Call} (hrespects : call.Respects owner)
    (hriskless : ∀ slot, ¬call.Risks slot) :
    (desk.runFailing fails made (call.program now)).2.1.Coherent := by
  obtain ⟨-, hkept⟩ := runFailing_program (Desk.coherent_iff.mp hcoherent) howned now hrespects
  exact fun slot value hcached => hkept slot value (not_or.mpr ⟨id, hriskless slot⟩) hcached

/-! ### Calls one after the other -/

/-- A call with its time, and which of its requests to ports fail. -/
structure Trial where
  now : Instant
  call : Call
  fails : Nat → Option Fault

/-- The desk after a number of trials, from nothing stored and nothing cached. -/
def afterTrials (register : Register) (trials : Nat → Trial) : Nat → Desk
  | 0 => ⟨.empty, register, { enabled := true }⟩
  | count + 1 =>
    ((afterTrials register trials count).runFailing (trials count).fails 0
      ((trials count).call.program (trials count).now)).2.1

/-- Whatever fails, only sets of followers can be stale. -/
theorem afterTrials_choices_coherent {register : Register} {trials : Nat → Trial}
    (hrespects : ∀ count, (trials count).call.Respects owner)
    (count : Nat) :
    (afterTrials register trials count).rows.Owned owner ∧
      (afterTrials register trials count).CoherentExcept
        fun slot => ∃ forum, slot = .followers forum := by
  induction count with
  | zero =>
      exact ⟨Rows.owned_empty, fun slot value _ hcached => by cases slot <;> cases hcached⟩
  | succ count ih =>
      obtain ⟨howned, hcoherent⟩ := ih
      obtain ⟨hkeptOwned, hkept⟩ :=
        runFailing_program hcoherent howned (trials count).now (hrespects count)
      refine ⟨hkeptOwned, fun slot value hslot => hkept slot value fun h => hslot ?_⟩
      exact h.elim id Call.Risks.followers

end DiscussionBoard.Subscription
