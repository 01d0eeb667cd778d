import DiscussionBoard.Proofs.Subscription.Agreement
import DiscussionBoard.Proofs.Subscription.Locality

/-!
# Independent changes commute

Changes for different users, and changes of one user's subscriptions in different forums, can be
made in either order. The cache is shared by all users of a forum, so the two orders go through
different caches, but all that a change takes from the cache is a set of followers, and these are
right on every desk that calls lead to.
-/

namespace DiscussionBoard.Subscription

variable {enabled : Bool} {desk : Desk} {first second : Call}

/-- Changes for different users, or of a user in different forums where each discussion is used with
one forum only. -/
inductive Desk.Independent (enabled : Bool) (desk : Desk) (first second : Call) : Prop
  | users (hdesk : desk.Visited enabled) {user other : Id}
    (hfirst : first.changedUser = some user) (hsecond : second.changedUser = some other)
    (hne : user ≠ other)
  | forums {owner : Id → Id} (hdesk : desk.Reachable owner enabled) {user forum other : Id}
    (hfirst : first.changedPlace = some (user, forum))
    (hsecond : second.changedPlace = some (user, other)) (hne : forum ≠ other)
    (hrespects : first.Respects owner) (hrespectsSecond : second.Respects owner)

/-! ### Parts of changes -/

theorem Call.within_of_changedUser {call : Call} {user : Id}
    (hcall : call.changedUser = some user) :
    call.Within (fun _ _ => True) ⟨user, fun _ => True⟩ := by
  cases call with
  | subscribe | unsubscribe =>
      cases hcall
      exact ⟨rfl, trivial, fun _ _ => trivial⟩
  | enrolled | unenrolled =>
      cases hcall
      exact ⟨rfl, fun _ _ => trivial⟩
  | eraseUser =>
      cases hcall
      exact ⟨rfl, fun _ => trivial⟩
  | isSubscribed | subscribers | discussionSubscribers | overridesOf | eraseForum | resetCache =>
      cases hcall

theorem Call.within_of_changedPlace {owner : Id → Id} {call : Call} {user forum : Id}
    (hcall : call.changedPlace = some (user, forum)) (hrespects : call.Respects owner) :
    call.Within (fun discussion home => home = owner discussion) ⟨user, (· = forum)⟩ := by
  cases call with
  | subscribe _ place discussion _ | unsubscribe _ place discussion _ =>
      cases hcall
      refine ⟨rfl, rfl, ?_⟩
      rintro found rfl
      exact hrespects.symm
  | isSubscribed | subscribers | discussionSubscribers | overridesOf | enrolled | unenrolled
  | eraseUser | eraseForum | resetCache => cases hcall

theorem Call.Within.changedUser {homes : Id → Id → Prop} {part : Part} {call : Call}
    (hcall : call.Within homes part) : call.changedUser = some part.user := by
  cases call with
  | subscribe | unsubscribe | enrolled | unenrolled | eraseUser => exact congrArg some hcall.1
  | isSubscribed | subscribers | discussionSubscribers | overridesOf | eraseForum | resetCache =>
      exact hcall.elim

theorem Part.disjoint_of_user {homes : Id → Id → Prop} {part other : Part}
    (hne : part.user ≠ other.user) {key : RowKey} (hkey : part.Has homes key) :
    ¬other.Has homes key := by
  intro hother
  cases key with
  | following | override => exact hne (hkey.1.symm.trans hother.1)

theorem Part.disjoint_of_forum {owner : Id → Id} {user forum otherUser other : Id}
    (hne : forum ≠ other) {key : RowKey}
    (hkey : Part.Has (fun discussion home => home = owner discussion) ⟨user, (· = forum)⟩ key) :
    ¬Part.Has (fun discussion home => home = owner discussion) ⟨otherUser, (· = other)⟩ key := by
  intro hother
  cases key with
  | following => exact hne (hkey.2.symm.trans hother.2)
  | override user discussion =>
      obtain ⟨-, _, rfl, howner⟩ := hkey
      obtain ⟨-, _, rfl, hownerOther⟩ := hother
      exact hne (howner.trans hownerOther.symm)

theorem Desk.Independent.exists_parts (hindependent : desk.Independent enabled first second) :
    ∃ homes part other, first.Within homes part ∧ second.Within homes other ∧
      (∀ key, part.Has homes key → ¬other.Has homes key) ∧ desk.rows.RecordedIn homes ∧
      desk.CoherentExcept Slot.IsChoices := by
  cases hindependent with
  | users hdesk hfirst hsecond hne =>
      refine ⟨_, _, _, Call.within_of_changedUser hfirst, Call.within_of_changedUser hsecond, ?_,
        ?_, hdesk.followers_coherent⟩
      · exact fun key hkey => Part.disjoint_of_user hne hkey
      · exact fun _ _ _ _ => trivial
  | forums hdesk hfirst hsecond hne hrespects hrespectsSecond =>
      have horderly := hdesk.orderly
      refine ⟨_, _, _, Call.within_of_changedPlace hfirst hrespects,
        Call.within_of_changedPlace hsecond hrespectsSecond, ?_, horderly.owned,
        horderly.coherent.except _⟩
      exact fun key hkey => Part.disjoint_of_forum hne hkey

theorem Rows.RecordedIn.undated {homes : Id → Id → Prop} {rows : Rows}
    (hrows : rows.RecordedIn homes) : rows.undated.RecordedIn homes := by
  intro user discussion override hget
  rw [overrideOf_undated, Option.map_eq_some_iff] at hget
  obtain ⟨stored, hstored, rfl⟩ := hget
  exact hrows user discussion stored hstored

/-! ### Runs of changes -/

theorem run_change_undated (hcoherent : desk.CoherentExcept Slot.IsChoices) (now : Instant)
    {call : Call} {user : Id} (hcall : call.changedUser = some user) :
    ∃ after, desk.run (call.program now) =
        (.ok (call.outcome default desk.register desk.rows.undated).1, after) ∧
      after.register = desk.register ∧
      after.rows.undated = (call.outcome default desk.register desk.rows.undated).2 ∧
      after.CoherentExcept Slot.IsChoices := by
  obtain ⟨cache, hrun⟩ := settles_of_changedUser hcoherent now hcall
  obtain ⟨-, -, hkept⟩ := run_call_followers hcoherent now call
  rw [hrun] at hkept
  rw [outcome_undated desk.rows desk.register now call]
  exact ⟨_, hrun, rfl, rfl, hkept⟩

theorem runAll_changes_undated (hcoherent : desk.CoherentExcept Slot.IsChoices)
    {user other : Id} (hfirst : first.changedUser = some user)
    (hsecond : second.changedUser = some other) (now later : Instant) :
    let middle := first.outcome default desk.register desk.rows.undated
    let last := second.outcome default desk.register middle.2
    ∃ after, desk.runAll [(now, first), (later, second)] = ([.ok middle.1, .ok last.1], after) ∧
      after.rows.undated = last.2 := by
  obtain ⟨between, hrun, hregister, hrows, hkept⟩ := run_change_undated hcoherent now hfirst
  obtain ⟨after, hrunSecond, -, hlast, -⟩ := run_change_undated hkept later hsecond
  rw [hregister, hrows] at hrunSecond hlast
  refine ⟨after, ?_, hlast⟩
  simp only [Desk.runAll, hrun, hrunSecond]

/-- Two independent changes reply the same in either order, and leave the same rows but for the
times of overrides. -/
theorem independent_changes_commute (hindependent : desk.Independent enabled first second)
    (now later nowSwapped laterSwapped : Instant) :
    ∃ firstReply secondReply after swapped,
      desk.runAll [(now, first), (later, second)] =
        ([.ok firstReply, .ok secondReply], after) ∧
      desk.runAll [(nowSwapped, second), (laterSwapped, first)] =
        ([.ok secondReply, .ok firstReply], swapped) ∧
      after.rows.undated = swapped.rows.undated := by
  obtain ⟨homes, part, other, hwithin, hwithinSecond, hdisjoint, hrows, hcoherent⟩ :=
    hindependent.exists_parts
  have hfirst := hwithin.changedUser
  have hsecond := hwithinSecond.changedUser
  obtain ⟨hsecondReply, hfirstReply, hlast⟩ :=
    (hwithin.confined default desk.register).commute
      (hwithinSecond.confined default desk.register) hdisjoint hrows.undated
  obtain ⟨after, hrun, hafter⟩ := runAll_changes_undated hcoherent hfirst hsecond now later
  obtain ⟨swapped, hrunSwapped, hswapped⟩ :=
    runAll_changes_undated hcoherent hsecond hfirst nowSwapped laterSwapped
  rw [hsecondReply] at hrun
  rw [hfirstReply] at hrunSwapped
  exact ⟨_, _, after, swapped, hrun, hrunSwapped, hafter.trans (hlast.trans hswapped.symm)⟩

theorem independent_changes_commute_of_warm_cache :
    let forum : Forum := { id := .ofNat 1, courseId := .ofNat 2 }
    let other : Forum := { id := .ofNat 3, courseId := .ofNat 2 }
    let start : Desk := ⟨.empty, {}, { enabled := true }⟩
    let following := (start.run ((Call.subscribe (.ofNat 7) forum none true).program default)).2
    let warm := (following.run ((Call.subscribers forum).program default)).2
    let leave := Call.unsubscribe (.ofNat 7) forum none true
    let pick := Call.subscribe (.ofNat 8) forum (some (.ofNat 5)) true
    let join := Call.subscribe (.ofNat 7) other (some (.ofNat 6)) false
    warm.cache.followersOf forum.id = some (.ofList [.ofNat 7]) ∧
    (warm.runAll [(default, leave), (default, pick)]).1.map Except.toOption =
      [some (.switch true), some (.switch true)] ∧
    ∀ second ∈ [pick, join], ∃ firstReply secondReply after swapped,
      warm.runAll [(default, leave), (default, second)] =
        ([.ok firstReply, .ok secondReply], after) ∧
      warm.runAll [(.ofSeconds 60, second), (.ofSeconds 90, leave)] =
        ([.ok secondReply, .ok firstReply], swapped) ∧
      after.rows.undated = swapped.rows.undated := by
  intro forum other start following warm leave pick join
  have hfollowing : following.Reachable (fun _ => other.id) true := .call .start default trivial
  have hreachable : warm.Reachable (fun _ => other.id) true := .call hfollowing default trivial
  have hvisited : warm.Visited true := .call (.call (.start {}) default _) default _
  have hpick : warm.Independent true leave pick := .users hvisited rfl rfl (by decide)
  have hjoin : warm.Independent true leave join :=
    .forums hreachable rfl rfl (by decide) trivial rfl
  refine ⟨by decide +kernel, by decide +kernel, fun second hsecond => ?_⟩
  have hindependent : warm.Independent true leave second := by
    simp only [List.mem_cons, List.not_mem_nil, or_false] at hsecond
    rcases hsecond with rfl | rfl
    · exact hpick
    · exact hjoin
  exact independent_changes_commute hindependent default default (.ofSeconds 60) (.ofSeconds 90)

end DiscussionBoard.Subscription
