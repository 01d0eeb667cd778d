import DiscussionBoard.Proofs.Subscription.Elsewhere
import DiscussionBoard.Proofs.Subscription.Repetition
import DiscussionBoard.Proofs.Subscription.Tearing

/-!
# Changes tried again

A change that fails leaves some of its writes made, and may leave sets of followers stale that it was
still to clear. Tried again, any number of times, until it succeeds, it leaves the rows that one
success leaves from the start, and it clears all that was stale.
-/

namespace DiscussionBoard.Subscription

variable {α β : Type} {owner : Id → Id} {fails : Nat → Option Fault} {made : Nat} {desk : Desk}
  {call : Call}

/-! ### Programs that write last -/

/-- From its first write on, a program makes no other request that can fail. -/
def WritesLast : Program signature α → Prop
  | .done _ | .fail _ => True
  | .ask request next =>
    (Request.LeavesRows request ∧ ∀ answer, WritesLast (next answer)) ∨
      ∀ answer, (next answer).MayAsk fun later : Request => later.isPort = false

theorem WritesLast.of_bind {program : Program signature α} {rest : α → Program signature β}
    (hprogram : program.AsksOnly Request.LeavesRows) (hrest : ∀ value, WritesLast (rest value)) :
    WritesLast (program >>= rest) := by
  induction program with
  | done value => exact hrest value
  | fail fault => exact hprogram.elim
  | ask request next ih => exact .inl ⟨hprogram.1, fun answer => ih answer (hprogram.2 answer)⟩

theorem WritesLast.map {program : Program signature α} (hprogram : WritesLast program) (f : α → β) :
    WritesLast (f <$> program) := by
  induction program with
  | done value => trivial
  | fail fault => trivial
  | ask request next ih =>
      rcases hprogram with ⟨hrequest, hnext⟩ | hnext
      · exact .inl ⟨hrequest, fun answer => ih answer (hnext answer)⟩
      · exact .inr fun answer => (hnext answer).map f

/-- Such a program fails before it writes, or not at all. -/
theorem WritesLast.runFailing {program : Program signature α} (hprogram : WritesLast program) :
    (desk.runFailing fails made program).2.1.rows = desk.rows ∨
      (desk.runFailing fails made program).2.1 = (desk.run program).2 := by
  induction program generalizing desk made with
  | done value => exact .inl rfl
  | fail fault => exact .inl rfl
  | ask request next ih =>
      cases hfails : if Request.isPort request then fails made else none with
      | some fault =>
          have hrun := runFailing_ask_of_some desk next hfails
          exact .inl (congrArg (·.2.1.rows) hrun)
      | none =>
          have hrun := runFailing_ask_of_none desk next hfails
          rcases hprogram with ⟨hrequest, hnext⟩ | hnext
          · obtain ⟨cache, hdesk⟩ := perform_of_leavesRows hrequest desk
            have hrows : (desk.perform request).2.rows = desk.rows := by rw [hdesk]
            rcases ih _ (hnext (desk.perform request).1) with hkept | hdone
            · exact .inl ((congrArg (·.2.1.rows) hrun).trans (hkept.trans hrows))
            · exact .inr ((congrArg (·.2.1) hrun).trans hdone)
          · have hnone : (next (desk.perform request).1).MayAsk fun later : Request =>
                later.isPort = true → ∀ made, fails made = none :=
              (hnext _).mono fun later hlater hport =>
                (Bool.false_ne_true (hlater.symm.trans hport)).elim
            exact .inr ((congrArg (·.2.1) hrun).trans (runFailing_eq_run hnone).2)

theorem writesLast_changeDiscussion (now : Instant) (wanted : Preference) (user : Id)
    (forum : Forum) (discussion : Id) :
    WritesLast (changeDiscussion now wanted user forum discussion) := by
  have hidle : WritesLast (do
      invalidate (.userForum user forum.id)
      pure false : Program signature Bool) := .inl ⟨trivial, fun _ => trivial⟩
  rw [changeDiscussion]
  apply WritesLast.of_bind (asksOnly_forumLevel user forum)
  intro inherited
  have hstored : (storedPreference user discussion).AsksOnly Request.LeavesRows :=
    ⟨trivial, fun _ => trivial⟩
  apply WritesLast.of_bind hstored
  intro existing
  unfold settleDiscussion
  split
  · split
    · exact .inr fun _ => ⟨rfl, fun _ => trivial⟩
    · exact hidle
  · split
    · exact hidle
    · exact .inr fun _ => ⟨rfl, fun _ => trivial⟩

/-! ### What an attempt makes of the rows -/

/-- Rows of which a call makes the same rows, but for the times of overrides. -/
def Call.MakesAlike (call : Call) (register : Register) (a b : Rows) : Prop :=
  (call.outcome default register a.undated).2 = (call.outcome default register b.undated).2

theorem Call.makesAlike_iff {register : Register} {a b : Rows} (now later : Instant) :
    call.MakesAlike register a b ↔
      (call.outcome now register a).2.undated = (call.outcome later register b).2.undated := by
  rw [MakesAlike, outcome_undated a register now, outcome_undated b register later]

/-- Changes for one discussion. -/
inductive Call.ChangesDiscussion : Call → Prop
  | subscribe (user : Id) (forum : Forum) (discussion : Id) (userRequest : Bool) :
    ChangesDiscussion (.subscribe user forum (some discussion) userRequest)
  | unsubscribe (user : Id) (forum : Forum) (discussion : Id) (userRequest : Bool) :
    ChangesDiscussion (.unsubscribe user forum (some discussion) userRequest)

/-- The calls that change subscriptions. -/
def Call.IsChange : Call → Prop
  | .subscribe .. | .unsubscribe .. | .enrolled .. | .unenrolled .. | .eraseUser _ | .eraseForum _ =>
    True
  | _ => False

theorem Call.IsChange.cases (hcall : call.IsChange) :
    call.ChangesDiscussion ∨ ∃ writes, call.Writes writes := by
  cases call with
  | subscribe user forum discussion userRequest =>
      cases discussion with
      | none => exact .inr ⟨_, .subscribe user forum userRequest⟩
      | some discussion => exact .inl (.subscribe user forum discussion userRequest)
  | unsubscribe user forum discussion userRequest =>
      cases discussion with
      | none => exact .inr ⟨_, .unsubscribe user forum userRequest⟩
      | some discussion => exact .inl (.unsubscribe user forum discussion userRequest)
  | enrolled user forums => exact .inr ⟨_, .enrolled user forums⟩
  | unenrolled user forums => exact .inr ⟨_, .unenrolled user forums⟩
  | eraseUser user => exact .inr ⟨_, .eraseUser user⟩
  | eraseForum forum => exact .inr ⟨_, .eraseForum forum⟩
  | isSubscribed | subscribers | discussionSubscribers | overridesOf | resetCache => exact hcall.elim

theorem performAll_runFailing {writes : List RowRequest} (hcall : call.Writes writes)
    (now : Instant) :
    (desk.runFailing fails made (call.program now)).2.1.rows.performAll writes =
      desk.rows.performAll writes := by
  obtain ⟨following, hsets⟩ := hcall.sets
  refine runFailing_keeps (hcall.mayAsk now)
    (fun other => other.rows.performAll writes = desk.rows.performAll writes) ?_ rfl
  intro request other hrequest hother
  cases request with
  | rows request => exact (Rows.performAll_of_mem hsets hrequest other.rows).trans hother
  | register request => exact hother
  | cache request => exact hother

theorem Call.ChangesDiscussion.writesLast (hcall : call.ChangesDiscussion) (now : Instant) :
    WritesLast (call.program now) := by
  cases hcall with
  | subscribe => exact (writesLast_changeDiscussion now _ _ _ _).map _
  | unsubscribe => exact (writesLast_changeDiscussion now _ _ _ _).map _

theorem Call.ChangesDiscussion.outcome_outcome (hcall : call.ChangesDiscussion) (now later : Instant)
    (register : Register) (rows : Rows) :
    (call.outcome later register (call.outcome now register rows).2).2 =
      (call.outcome now register rows).2 := by
  cases hcall with
  | subscribe user forum discussion =>
      have hidle := congrArg Prod.snd (rows.changeDiscussion_changeDiscussion register now later
        .subscribed user forum discussion)
      exact hidle
  | unsubscribe user forum discussion =>
      have hidle := congrArg Prod.snd (rows.changeDiscussion_changeDiscussion register now later
        .unsubscribed user forum discussion)
      exact hidle

/-! ### Where sets of followers are stale -/

theorem settles_of_risked (hcoherent : desk.CoherentExcept call.Risks)
    (howned : desk.rows.Owned owner) (now : Instant) (hrespects : call.Respects owner) :
    desk.Settles (call.program now) (call.outcome now desk.register desk.rows) := by
  by_cases hrisks : ∃ slot, call.Risks slot
  · obtain ⟨slot, hrisk⟩ := hrisks
    unfold Call.Risks at hrisk
    -- The calls that can leave something stale read nothing.
    split at hrisk
    · exact (settles_changeForum desk .subscribed _ _ true).map _
    · exact (settles_changeForum desk .unsubscribed _ _ true).map _
    · exact (settles_unenrolled desk _ _).map _
    · exact hrisk.elim
  · have hall : desk.Coherent := fun slot value hcached =>
      hcoherent slot value (fun hrisk => hrisks ⟨slot, hrisk⟩) hcached
    exact settles_program hall howned now hrespects

theorem at?_run_unenrolled {user : Id} {forums : List Forum} {slot : Slot} {value : slot.Value}
    (hcached : (desk.run (unenrolled user forums)).2.cache.at? slot = some value) :
    desk.cache.at? slot = some value ∧
      ∀ forum ∈ forums, (Scope.forum forum.id).covers slot = false := by
  induction forums generalizing desk with
  | nil => exact ⟨hcached, nofun⟩
  | cons forum rest ih =>
      obtain ⟨cache, hrun⟩ := settles_unenrolled (desk.withoutFollowing user forum.id) user rest
      have hcons : (desk.run (unenrolled user (forum :: rest))).2 =
          ((desk.withoutFollowing user forum.id).run (unenrolled user rest)).2 := by
        refine (congrArg Prod.snd (run_bind_of_ok hrun fun others => pure _)).trans ?_
        rw [hrun]
        rfl
      rw [hcons] at hcached
      obtain ⟨hfound, hrest⟩ := ih hcached
      obtain ⟨hcovers, hbefore⟩ := Cache.at?_invalidate.mp hfound
      exact ⟨hbefore, List.forall_mem_cons.mpr ⟨hcovers, hrest⟩⟩

/-- A call that succeeds has cleared what it could have left stale. -/
theorem at?_run_of_risked (desk : Desk) (now : Instant) {slot : Slot} (hrisk : call.Risks slot) :
    (desk.run (call.program now)).2.cache.at? slot = none := by
  refine Option.eq_none_iff_forall_ne_some.mpr fun value hcached => ?_
  have hcleared : ∀ {cache : Cache} {forum : Id} {users : KeySet Id},
      (cache.invalidate (.forum forum)).at? (.followers forum) ≠ some users := by
    intro cache forum users hcached
    exact Bool.false_ne_true
      ((Cache.at?_invalidate.mp hcached).1.symm.trans covers_forum_followers)
  unfold Call.Risks at hrisk
  split at hrisk
  · subst hrisk
    exact hcleared hcached
  · subst hrisk
    exact hcleared hcached
  · rename_i user forums
    obtain ⟨forum, hforum, rfl⟩ := hrisk
    obtain ⟨cache, hrun⟩ := settles_unenrolled desk user forums
    have hlast : (desk.run (unenrolled user forums)).2.cache.at? (.followers forum.id) =
        some value := by
      rw [Call.program, run_map_of_ok hrun] at hcached
      rw [hrun]
      exact hcached
    have huncovered := (at?_run_unenrolled hlast).2 forum hforum
    exact Bool.false_ne_true (huncovered.symm.trans covers_forum_followers)
  · exact hrisk.elim

theorem coherent_run_of_risked (hcoherent : desk.CoherentExcept call.Risks)
    (howned : desk.rows.Owned owner) (now : Instant) (hrespects : call.Respects owner) :
    (desk.run (call.program now)).2.Coherent := by
  have hsucceeds : (desk.runFailing (fun _ => none) 0 (call.program now)).2.1 =
      (desk.run (call.program now)).2 :=
    (runFailing_eq_run ((call.program now).mayAsk.mono fun _ _ _ _ => rfl)).2
  have hkept : Desk.CoherentExcept (desk.runFailing (fun _ => none) 0 (call.program now)).2.1
      fun slot => call.Risks slot ∨ call.Risks slot :=
    (runFailing_program hcoherent howned now hrespects).2
  rw [hsucceeds] at hkept
  intro slot value hcached
  refine hkept slot value (fun hrisk => ?_) hcached
  rw [at?_run_of_risked desk now (or_self_iff.mp hrisk)] at hcached
  cases hcached

/-! ### Attempts -/

/-- Tries a call again and again, each time at its time and with the requests that fail then. -/
def Desk.afterAttempts (desk : Desk) (call : Call) : List (Instant × (Nat → Option Fault)) → Desk
  | [] => desk
  | (now, fails) :: rest =>
    Desk.afterAttempts (desk.runFailing fails 0 (call.program now)).2.1 call rest

/-- A desk that attempts at a call lead to: the call makes the same rows of it, and nothing is stale
but what the call clears. -/
structure Desk.Attempted (owner : Id → Id) (call : Call) (desk other : Desk) : Prop where
  owned : other.rows.Owned owner
  coherent : other.CoherentExcept call.Risks
  register : other.register = desk.register
  rows : call.MakesAlike desk.register other.rows desk.rows

theorem makesAlike_runFailing (hcoherent : desk.CoherentExcept call.Risks)
    (howned : desk.rows.Owned owner) (hcall : call.IsChange) (hrespects : call.Respects owner)
    (now : Instant) (fails : Nat → Option Fault) (made : Nat) :
    call.MakesAlike desk.register (desk.runFailing fails made (call.program now)).2.1.rows
      desk.rows := by
  rcases hcall.cases with hdiscussion | ⟨writes, hwrites⟩
  · -- The attempt has written nothing, or it is done and leaves nothing to do.
    have hends : (desk.runFailing fails made (call.program now)).2.1.rows = desk.rows ∨
        (desk.runFailing fails made (call.program now)).2.1 = (desk.run (call.program now)).2 :=
      (hdiscussion.writesLast now).runFailing
    rcases hends with hkept | hdone
    · rw [hkept, Call.MakesAlike]
    · obtain ⟨cache, hrun⟩ := settles_of_risked hcoherent howned now hrespects
      rw [hdone, hrun, Call.makesAlike_iff now now, hdiscussion.outcome_outcome]
  · -- What the attempt has written of the writes, they absorb.
    rw [Call.makesAlike_iff now now, hwrites.snd_outcome, hwrites.snd_outcome,
      performAll_runFailing hwrites now]

namespace Desk.Attempted

variable {other : Desk} (hattempted : desk.Attempted owner call other) (hcall : call.IsChange)
  (hrespects : call.Respects owner)
include hattempted hcall hrespects

theorem attempt (now : Instant) (fails : Nat → Option Fault) :
    desk.Attempted owner call (other.runFailing fails 0 (call.program now)).2.1 := by
  obtain ⟨howned, hkept⟩ :=
    runFailing_program hattempted.coherent hattempted.owned now hrespects
  have halike := makesAlike_runFailing hattempted.coherent hattempted.owned hcall hrespects now
    fails 0
  rw [hattempted.register] at halike
  exact
    { owned := howned
      coherent := fun slot value hfresh => hkept slot value fun h => hfresh (or_self_iff.mp h)
      register := (register_runFailing _).trans hattempted.register
      rows := halike.trans hattempted.rows }

theorem afterAttempts (attempts : List (Instant × (Nat → Option Fault))) :
    desk.Attempted owner call (other.afterAttempts call attempts) := by
  induction attempts generalizing other with
  | nil => exact hattempted
  | cons attempt rest ih => exact ih (hattempted.attempt hcall hrespects attempt.1 attempt.2)

end Desk.Attempted

/-- However often a change was attempted, and wherever the attempts failed, once it succeeds the rows
are those that a success from the start leaves, but for the times of overrides, and the cache is
coherent. -/
theorem retries_converge {enabled : Bool} (hdesk : desk.Reachable owner enabled)
    (hcall : call.IsChange) (hrespects : call.Respects owner)
    (attempts : List (Instant × (Nat → Option Fault))) (now later : Instant) :
    ∃ reply replyOnce after once,
      (desk.afterAttempts call attempts).run (call.program later) = (.ok reply, after) ∧
      desk.run (call.program now) = (.ok replyOnce, once) ∧
      after.rows.undated = once.rows.undated ∧ after.Coherent := by
  have horderly := hdesk.orderly
  have hstart : desk.Attempted owner call desk :=
    ⟨horderly.owned, horderly.coherent.except _, rfl, rfl⟩
  have hlast := hstart.afterAttempts hcall hrespects attempts
  obtain ⟨cacheOnce, hrunOnce⟩ := settles_of_risked hstart.coherent hstart.owned now hrespects
  obtain ⟨cache, hrun⟩ := settles_of_risked hlast.coherent hlast.owned later hrespects
  have hcoherent := coherent_run_of_risked hlast.coherent hlast.owned later hrespects
  rw [hrun] at hcoherent
  refine ⟨_, _, _, _, hrun, hrunOnce, ?_, hcoherent⟩
  rw [hlast.register]
  exact (Call.makesAlike_iff later now).mp hlast.rows

/-- A request fails after the following is gone and before the forum is cleared. -/
theorem retries_converge_of_torn :
    let forum : Forum := { id := .ofNat 1, courseId := .ofNat 2 }
    let following := (Desk.run ⟨.empty, {}, { enabled := true }⟩
      ((Call.subscribe (.ofNat 7) forum none true).program default)).2
    let desk := (following.run ((Call.subscribers forum).program default)).2
    let call := Call.unsubscribe (.ofNat 7) forum none true
    let fails (request : Nat) : Option Fault :=
      if request = 1 then some (.storage "connection lost" []) else none
    let torn := desk.afterAttempts call [(default, fails), (default, fails)]
    (torn.cache.followersOf forum.id = some (.ofList [.ofNat 7]) ∧
      torn.rows.follows (.ofNat 7) forum.id = false) ∧
    ∃ reply replyOnce after once, torn.run (call.program (.ofSeconds 60)) = (.ok reply, after) ∧
      desk.run (call.program default) = (.ok replyOnce, once) ∧
      after.rows.undated = once.rows.undated ∧ after.Coherent := by
  intro forum following desk call fails torn
  have hfollowing : following.Reachable id true := .call .start default trivial
  have hdesk : desk.Reachable id true := .call hfollowing default trivial
  have hcall : call.IsChange := trivial
  exact ⟨⟨by decide +kernel, by decide +kernel⟩,
    retries_converge hdesk hcall trivial [(default, fails), (default, fails)] default
      (.ofSeconds 60)⟩

end DiscussionBoard.Subscription
