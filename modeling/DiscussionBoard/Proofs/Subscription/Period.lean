import Mathlib.Order.Monotone.Basic
import DiscussionBoard.Proofs.Subscription.Freshness
import DiscussionBoard.Proofs.Subscription.Outcome

/-!
# The period of a look-up

A cached value may be older than the look-up that finds it, but only as old as a write of a change
that was still under way when the look-up began. So whatever a look-up comes to know was stored at a
moment of a period that starts there and ends with the look-up.
-/

namespace DiscussionBoard.Subscription

/-- A look-up of one discussion knows the followers and the user's choices that it replies by. -/
theorem obeys_isSubscribed_of_discussion {owner : Id → Id} {memo : Memo} (user : Id) {forum : Forum}
    (hmode : forum.subscriptionMode.isOptional = true) (discussion : Id) :
    (isSubscribed user forum (some discussion)).Obeys (rules owner true fun _ => True)
      (fun after answer => ∃ (users : KeySet Id) (choices : Table Id Preference),
        ⟨.followers forum.id, users⟩ ∈ after.known ∧ ⟨.choices user forum.id, choices⟩ ∈ after.known ∧
        answer = ((choices.get? discussion).map (·.isSubscribed)).getD (users.contains user))
      memo := by
  apply (obeys_forumLevel (fun _ _ => trivial) user forum).bind
  intro first inherited hfirst
  obtain ⟨users, hknown, rfl⟩ := hfirst.2 hmode rfl
  have hpreference : (preference user forum.id discussion).Obeys (rules owner true fun _ => True)
      (fun after own => first.Extends after ∧ ∃ choices : Table Id Preference,
        ⟨.choices user forum.id, choices⟩ ∈ after.known ∧ own = choices.get? discussion) first := by
    refine ⟨trivial, fun answer hanswer => ?_⟩
    obtain rfl : answer = true := hanswer
    exact (obeys_overridesOf (fun _ _ => trivial) user forum.id).bind
      fun _ choices hafter => ⟨hafter.1, choices, hafter.2, rfl⟩
  dsimp only
  rw [if_pos hmode]
  apply hpreference.bind
  rintro last own ⟨hlast, choices, hchoices, rfl⟩
  exact ⟨users, choices, hlast.known hknown, hchoices, rfl⟩

namespace Play

variable {ι : Type} [DecidableEq ι] {play : Play ι} {owner : Id → Id} {slot : Slot}
  {value : slot.Value} {turn moment began ended : Nat} {caller reader : ι}

theorem clearings_mono (play : Play ι) : Monotone play.clearings :=
  monotone_nat_of_le_succ play.clearings_le_succ

/-- A call keeps to what its program is held to. -/
theorem left_obeys (hrespects : ∀ caller, (play.calls caller).Respects owner)
    (hclearings : play.clearings moment < UInt64.size) {post : Memo → Reply → Prop}
    (hprogram : ((play.calls caller).program (play.now caller)).Obeys
      (rules owner true fun _ => True) post {}) :
    ((play.moment moment).left caller).Obeys (rules owner true fun _ => True) post
      (play.memos owner moment caller) := by
  induction moment with
  | zero => exact hprogram
  | succ turn ih =>
      have hbefore := Nat.lt_of_le_of_lt (play.clearings_le_succ turn) hclearings
      cases hasked : play.asked turn with
      | none =>
          rw [moment_succ_of_asked_none hasked, memos_succ_of_asked_none hasked]
          exact ih hbefore
      | some request =>
          obtain ⟨next, hask⟩ := ask_of_asked hasked
          exact left_obeys_succ (sound hrespects turn hbefore).enabled hask (ih hbefore)

/-- The moments from the beginning of a look-up to its end, and those before it from the first write
on of a call that was not done when the look-up began. -/
def Spans (play : Play ι) (owner : Id → Id) (began ended moment : Nat) : Prop :=
  moment ≤ ended ∧ (began ≤ moment ∨ ∃ turn ≤ moment, turn < began ∧
    (∃ slot, play.Touches owner turn slot) ∧ ¬play.Finished began (play.schedule turn))

/-- Whatever a call has seen of a slot was stored at a moment of its period. -/
theorem Seen.spans (hrespects : ∀ caller, (play.calls caller).Respects owner)
    (hclearings : play.clearings ended < UInt64.size)
    (hseen : play.Seen owner reader ended slot value) (hle : began ≤ ended)
    (hbegan : ∀ turn < began, play.schedule turn ≠ reader) :
    ∃ moment, play.Spans owner began ended moment ∧
      value = (play.moment moment).desk.rows.at slot := by
  obtain ⟨past, hpast, rfl, hwrites⟩ := hseen
  -- The value stays stored until the slot is written, so at least up to the period.
  have hstays : ∀ later, past ≤ later → later ≤ ended →
      (∀ turn, past ≤ turn → turn < later → ¬play.Touches owner turn slot) →
      (play.moment past).desk.rows.at slot = (play.moment later).desk.rows.at slot := by
    intro later hlater hended huntouched
    exact (at_of_untouched hrespects hlater
      (Nat.lt_of_le_of_lt (play.clearings_mono hended) hclearings) huntouched).symm
  by_cases hwritten : ∃ turn, past ≤ turn ∧ turn < began ∧ play.Touches owner turn slot
  · classical
    obtain ⟨hafter, hbefore, htouches⟩ := Nat.find_spec hwritten
    refine ⟨Nat.find hwritten, ⟨by omega, .inr ⟨_, Nat.le_refl _, hbefore, ⟨slot, htouches⟩, ?_⟩⟩, ?_⟩
    · intro hfinished
      have hlt := hwrites began hbegan _ htouches hfinished
      omega
    · refine hstays _ hafter (by omega) fun turn hturn hlt htouched => ?_
      exact Nat.find_min hwritten hlt ⟨hturn, by omega, htouched⟩
  · rcases Nat.le_total began past with hlate | hearly
    · exact ⟨past, ⟨hpast, .inl hlate⟩, rfl⟩
    · refine ⟨began, ⟨hle, .inl (Nat.le_refl _)⟩, hstays began hearly hle fun turn hturn hlt htouched => ?_⟩
      exact hwritten ⟨turn, hturn, hlt, htouched⟩

end Play

end DiscussionBoard.Subscription
