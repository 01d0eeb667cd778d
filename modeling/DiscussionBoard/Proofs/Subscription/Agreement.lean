import DiscussionBoard.Proofs.Subscription.Reachable
import DiscussionBoard.Proofs.Subscription.Undated

/-!
# Desks with and without a cache agree

Two coherent desks with the same register, and the same rows but for times, stay alike through every
call and reply alike, whatever each has in its cache.
-/

namespace DiscussionBoard.Subscription

/-- Makes calls one after the other, each at its time. -/
def Desk.runAll (desk : Desk) : List (Instant × Call) → List (Except Fault Reply) × Desk
  | [] => ([], desk)
  | (now, call) :: rest =>
    let (reply, desk) := desk.run (call.program now)
    let (replies, desk) := desk.runAll rest
    (reply :: replies, desk)

/-- Desks that only differ in their caches and in the times of overrides. -/
structure Desk.Alike (owner : Id → Id) (desk other : Desk) : Prop where
  coherent : desk.Coherent
  coherent_other : other.Coherent
  owned : desk.rows.Owned owner
  owned_other : other.rows.Owned owner
  register : desk.register = other.register
  rows : desk.rows.undated = other.rows.undated

variable {owner : Id → Id} {desk other : Desk}

/-- Alike desks reply alike to a call, also at different times, and stay alike. -/
theorem Desk.Alike.run (halike : desk.Alike owner other) {call : Call}
    (hrespects : call.Respects owner) (now nowOther : Instant) :
    ∃ reply desk' other', desk.run (call.program now) = (.ok reply, desk') ∧
      other.run (call.program nowOther) = (.ok reply, other') ∧ desk'.Alike owner other' := by
  obtain ⟨cache, hrun, hkept, hkeptOwned⟩ := run_program halike.coherent halike.owned now hrespects
  obtain ⟨cacheOther, hrunOther, hkeptOther, hkeptOwnedOther⟩ :=
    run_program halike.coherent_other halike.owned_other nowOther hrespects
  -- Without their times the rows are the same, and so are the two outcomes.
  have houtcome := outcome_undated desk.rows desk.register now call
  have houtcomeOther := outcome_undated other.rows other.register nowOther call
  rw [← halike.rows, ← halike.register, houtcome] at houtcomeOther
  obtain ⟨hreply, hrows⟩ := Prod.mk.inj houtcomeOther
  rw [hreply] at hrun
  rw [← halike.register] at hrunOther hkeptOther hkeptOwnedOther
  exact ⟨_, _, _, hrun, hrunOther, hkept, hkeptOther, hkeptOwned, hkeptOwnedOther, rfl, hrows⟩

theorem Desk.Alike.runAll (halike : desk.Alike owner other)
    (steps : List (Call × Instant × Instant)) (hrespects : ∀ step ∈ steps, step.1.Respects owner) :
    (desk.runAll (steps.map fun step => (step.2.1, step.1))).1 =
        (other.runAll (steps.map fun step => (step.2.2, step.1))).1 ∧
      (∀ reply ∈ (desk.runAll (steps.map fun step => (step.2.1, step.1))).1,
        ∃ value, reply = .ok value) ∧
      (desk.runAll (steps.map fun step => (step.2.1, step.1))).2.Alike owner
        (other.runAll (steps.map fun step => (step.2.2, step.1))).2 := by
  induction steps generalizing desk other with
  | nil => exact ⟨rfl, nofun, halike⟩
  | cons step rest ih =>
      obtain ⟨call, now, nowOther⟩ := step
      obtain ⟨reply, desk', other', hrun, hrunOther, hkept⟩ :=
        halike.run (hrespects _ List.mem_cons_self) now nowOther
      obtain ⟨hreplies, hok, hlast⟩ := ih hkept fun step h => hrespects step (List.mem_cons_of_mem _ h)
      simp only [List.map_cons, Desk.runAll, hrun, hrunOther]
      refine ⟨by rw [hreplies], fun found hfound => ?_, hlast⟩
      rcases List.mem_cons.mp hfound with rfl | hfound
      · exact ⟨reply, rfl⟩
      · exact hok found hfound

/-- Calls made one after the other get the same replies with and without a cache, and leave the same
rows but for the times of overrides. -/
theorem cached_agrees_uncached (owner : Id → Id) (rows : Rows) (howned : rows.Owned owner)
    (register : Register) (steps : List (Call × Instant × Instant))
    (hrespects : ∀ step ∈ steps, step.1.Respects owner) :
    let cached := Desk.runAll ⟨rows, register, { enabled := true }⟩
      (steps.map fun step => (step.2.1, step.1))
    let uncached := Desk.runAll ⟨rows, register, { enabled := false }⟩
      (steps.map fun step => (step.2.2, step.1))
    cached.1 = uncached.1 ∧ (∀ reply ∈ cached.1, ∃ value, reply = .ok value) ∧
      cached.2.rows.undated = uncached.2.rows.undated := by
  have halike : Desk.Alike owner ⟨rows, register, { enabled := true }⟩
      ⟨rows, register, { enabled := false }⟩ :=
    ⟨coherent_of_empty _ _ _, coherent_of_empty _ _ _, howned, howned, rfl, rfl⟩
  obtain ⟨hreplies, hok, hlast⟩ := halike.runAll steps hrespects
  exact ⟨hreplies, hok, hlast.rows⟩

theorem cached_agrees_uncached_of_warm_cache :
    let forum : Forum := { id := .ofNat 1, courseId := .ofNat 2 }
    let rows := (Rows.empty.putOverride ⟨.ofNat 7, .ofNat 1, .ofNat 5, .unsubscribed, default⟩).2
    let calls : List Call := [.subscribers forum, .isSubscribed (.ofNat 7) forum (some (.ofNat 5)),
      .subscribe (.ofNat 7) forum none true, .isSubscribed (.ofNat 7) forum (some (.ofNat 5)),
      .unsubscribe (.ofNat 7) forum (some (.ofNat 6)) false,
      .discussionSubscribers forum (.ofNat 6)]
    (Desk.runAll ⟨rows, {}, { enabled := true }⟩
        (calls.map fun call => (default, call))).1.map Except.toOption =
      [some (.users []), some (.switch false), some (.switch true), some (.switch true),
        some (.switch true), some (.users [])] ∧
    (Desk.runAll ⟨rows, {}, { enabled := true }⟩ (calls.map fun call => (default, call))).1 =
      (Desk.runAll ⟨rows, {}, { enabled := false }⟩
        (calls.map fun call => (Instant.ofSeconds 60, call))).1 := by
  intro forum rows calls
  have hrows : rows.Owned fun _ => .ofNat 1 := Rows.owned_empty.putOverride rfl
  have hagrees := cached_agrees_uncached (fun _ => .ofNat 1) rows hrows {}
    (calls.map fun call => (call, default, Instant.ofSeconds 60))
    (by simp [calls, Call.Respects, forum])
  exact ⟨by decide +kernel, hagrees.1⟩

end DiscussionBoard.Subscription
