import Mathlib.Data.Nat.Find
import Mathlib.Logic.Function.Basic
import DiscussionBoard.Proofs.Subscription.Slot
import DiscussionBoard.Proofs.Subscription.Call

/-!
# Interleaved calls

Calls at work at the same time on one desk. A schedule tells whose turn it is; each turn is one
request, so calls may be interleaved in every order in which their requests can come.
-/

namespace DiscussionBoard.Subscription

variable {ι : Type}

structure Scene (ι : Type) where
  desk : Desk
  /-- What each caller has still to do. -/
  left : ι → Program signature Reply

/-- Calls on a desk with nothing stored and nothing cached, and the order of their turns. -/
structure Play (ι : Type) where
  calls : ι → Call
  now : ι → Instant
  register : Register
  schedule : Nat → ι

variable [DecidableEq ι]

/-- A turn. A caller that is done lets it pass. -/
def Scene.step (scene : Scene ι) (caller : ι) : Scene ι :=
  match scene.left caller with
  | .ask request next =>
    let (answer, desk) := scene.desk.perform request
    ⟨desk, Function.update scene.left caller (next answer)⟩
  | .done _ | .fail _ => scene

namespace Scene

variable {scene : Scene ι} {schedule : Nat → ι} {caller other : ι} {began ended : Nat}
  {request : Request} {next : Answer request → Program signature Reply}

theorem desk_step_of_ask (h : scene.left caller = .ask request next) :
    (scene.step caller).desk = (scene.desk.perform request).2 := by
  rw [step, h]

theorem left_step_of_ask (h : scene.left caller = .ask request next) :
    (scene.step caller).left caller = next (scene.desk.perform request).1 := by
  rw [step, h]
  exact Function.update_self _ _ _

/-- A turn leaves the other calls as they are. -/
theorem left_step_of_ne (hcaller : caller ≠ other) :
    (scene.step other).left caller = scene.left caller := by
  rw [step]
  split
  · exact Function.update_of_ne hcaller _ _
  · rfl
  · rfl

theorem enabled_step (scene : Scene ι) (caller : ι) :
    (scene.step caller).desk.cache.enabled = scene.desk.cache.enabled := by
  rw [step]
  split
  · exact Desk.enabled_perform ..
  · rfl
  · rfl

/-- The scene after some turns. -/
def after (scene : Scene ι) (schedule : Nat → ι) : Nat → Scene ι
  | 0 => scene
  | turn + 1 => (scene.after schedule turn).step (schedule turn)

theorem enabled_after (scene : Scene ι) (schedule : Nat → ι) (turn : Nat) :
    (scene.after schedule turn).desk.cache.enabled = scene.desk.cache.enabled := by
  induction turn with
  | zero => rfl
  | succ turn ih => rw [after, enabled_step, ih]

/-- A call still asks what it asked, or was answered at one of the turns since. -/
theorem asks_or_answered (hask : (scene.after schedule began).left caller = .ask request next)
    (hle : began ≤ ended) :
    (scene.after schedule ended).left caller = .ask request next ∨
      ∃ turn, began ≤ turn ∧ turn < ended ∧ (scene.after schedule (turn + 1)).left caller =
        next ((scene.after schedule turn).desk.perform request).1 := by
  induction hle with
  | refl => exact .inl hask
  | @step turn hle ih =>
      rcases ih with hwaits | ⟨answered, hafter, hbefore, hanswer⟩
      · by_cases hturn : caller = schedule turn
        · subst hturn
          exact .inr ⟨turn, hle, Nat.lt_succ_self _, left_step_of_ask hwaits⟩
        · exact .inl ((left_step_of_ne hturn).trans hwaits)
      · exact .inr ⟨answered, hafter, Nat.lt_succ_of_lt hbefore, hanswer⟩

theorem answered (hask : (scene.after schedule began).left caller = .ask request next)
    (hle : began ≤ ended)
    (hover : ∀ request next, (scene.after schedule ended).left caller ≠ .ask request next) :
    ∃ turn, began ≤ turn ∧ turn < ended ∧ (scene.after schedule (turn + 1)).left caller =
      next ((scene.after schedule turn).desk.perform request).1 :=
  (asks_or_answered hask hle).resolve_left (hover request next)

theorem stays_done {reply : Reply} (hdone : (scene.after schedule began).left caller = .done reply)
    (hle : began ≤ ended) : (scene.after schedule ended).left caller = .done reply := by
  induction hle with
  | refl => exact hdone
  | @step turn _ ih =>
      by_cases hturn : caller = schedule turn
      · subst hturn
        rw [after, step, ih]
        exact ih
      · exact (left_step_of_ne hturn).trans ih

end Scene

namespace Play

def moment (play : Play ι) : Nat → Scene ι
  | 0 =>
    ⟨⟨.empty, play.register, { enabled := true }⟩,
      fun caller => (play.calls caller).program (play.now caller)⟩
  | turn + 1 => (play.moment turn).step (play.schedule turn)

/-- The request made at a turn. -/
def asked (play : Play ι) (turn : Nat) : Option Request :=
  match (play.moment turn).left (play.schedule turn) with
  | .ask request _ => some request
  | .done _ | .fail _ => none

def Finished (play : Play ι) (moment : Nat) (caller : ι) : Prop :=
  ∃ reply, (play.moment moment).left caller = .done reply

/-- Whether the request made at a turn may change a slot of the rows. -/
def Touches (play : Play ι) (owner : Id → Id) (turn : Nat) (slot : Slot) : Prop :=
  ∃ request, play.asked turn = some request ∧ request.Touches owner slot

/-- How often the cache was cleared before a moment. -/
def clearings (play : Play ι) : Nat → Nat
  | 0 => 0
  | turn + 1 => play.clearings turn + ((play.asked turn).any Request.isClearing).toNat

variable {play : Play ι} {owner : Id → Id} {slot : Slot} {turn moment : Nat} {caller : ι}
  {request : Request} {next : Answer request → Program signature Reply}

theorem asked_of_ask
    (h : (play.moment turn).left (play.schedule turn) = .ask request next) :
    play.asked turn = some request := by
  rw [asked, h]

theorem moment_succ_of_asked_none (h : play.asked turn = none) :
    play.moment (turn + 1) = play.moment turn := by
  rw [Play.moment, Scene.step]
  rw [asked] at h
  split
  · rename_i hleft
    rw [hleft] at h
    cases h
  · rfl
  · rfl

theorem ask_of_asked (h : play.asked turn = some request) :
    ∃ next, (play.moment turn).left (play.schedule turn) = .ask request next := by
  rw [asked] at h
  split at h
  · rename_i next hleft
    cases h
    exact ⟨next, hleft⟩
  · cases h
  · cases h

theorem desk_succ_of_ask
    (h : (play.moment turn).left (play.schedule turn) = .ask request next) :
    (play.moment (turn + 1)).desk = ((play.moment turn).desk.perform request).2 :=
  Scene.desk_step_of_ask h

theorem left_succ_of_ask
    (h : (play.moment turn).left (play.schedule turn) = .ask request next) :
    (play.moment (turn + 1)).left (play.schedule turn) =
      next ((play.moment turn).desk.perform request).1 :=
  Scene.left_step_of_ask h

theorem left_succ_of_ne (hcaller : caller ≠ play.schedule turn) :
    (play.moment (turn + 1)).left caller = (play.moment turn).left caller :=
  Scene.left_step_of_ne hcaller

theorem clearings_succ_of_ask
    (h : (play.moment turn).left (play.schedule turn) = .ask request next) :
    play.clearings (turn + 1) = play.clearings turn + request.isClearing.toNat := by
  rw [clearings, asked_of_ask h, Option.any_some]

theorem clearings_le_succ (play : Play ι) (turn : Nat) :
    play.clearings turn ≤ play.clearings (turn + 1) :=
  Nat.le_add_right _ _

theorem asked_of_finished (h : play.Finished turn (play.schedule turn)) :
    play.asked turn = none := by
  obtain ⟨reply, hdone⟩ := h
  rw [asked, hdone]

/-- A call that is done stays done. -/
theorem Finished.succ (h : play.Finished turn caller) : play.Finished (turn + 1) caller := by
  by_cases hcaller : caller = play.schedule turn
  · subst hcaller
    rwa [Finished, moment_succ_of_asked_none (asked_of_finished h)]
  · rwa [Finished, left_succ_of_ne hcaller]

theorem Finished.mono (h : play.Finished moment caller) (hle : moment ≤ turn) :
    play.Finished turn caller := by
  induction hle with
  | refl => exact h
  | step _ ih => exact ih.succ

/-- A call writes only before it is done. -/
theorem Touches.lt_of_finished (htouches : play.Touches owner turn slot)
    (h : play.Finished moment (play.schedule turn)) : turn < moment := by
  by_contra hle
  obtain ⟨request, hasked, -⟩ := htouches
  rw [asked_of_finished (h.mono (Nat.le_of_not_lt hle))] at hasked
  cases hasked

theorem left_of_waiting {later : Nat} (hle : turn ≤ later)
    (hwaiting : ∀ between, turn ≤ between → between < later → play.schedule between ≠ caller) :
    (play.moment later).left caller = (play.moment turn).left caller := by
  induction hle with
  | refl => rfl
  | step hle ih =>
      rw [left_succ_of_ne (hwaiting _ hle (Nat.lt_succ_self _)).symm]
      exact ih fun between hbetween hlt => hwaiting between hbetween (Nat.lt_succ_of_lt hlt)

/-- A call whose turn comes again and again comes to an end. -/
theorem ends_of_turns (hturns : ∀ turn, ∃ later ≥ turn, play.schedule later = caller) :
    ∃ moment, ∀ request next, (play.moment moment).left caller ≠ .ask request next := by
  have hleft : ∀ program turn, (play.moment turn).left caller = program →
      ∃ moment, ∀ request next, (play.moment moment).left caller ≠ .ask request next := by
    intro program
    -- The induction is on what is left of the call; it goes on at the first turn to come.
    induction program with
    | done reply =>
        intro turn h
        exact ⟨turn, by simp [h]⟩
    | fail fault =>
        intro turn h
        exact ⟨turn, by simp [h]⟩
    | ask request next ih =>
        intro turn h
        classical
        have hturn := hturns turn
        obtain ⟨hafter, hcaller⟩ := Nat.find_spec hturn
        have hask : (play.moment (Nat.find hturn)).left (play.schedule (Nat.find hturn)) =
            .ask request next := by
          rw [hcaller, ← h]
          exact left_of_waiting hafter fun between hbetween hlt hsame =>
            Nat.find_min hturn hlt ⟨hbetween, hsame⟩
        have hnext := left_succ_of_ask hask
        rw [hcaller] at hnext
        exact ih _ (Nat.find hturn + 1) hnext
  exact hleft _ 0 rfl

end Play

end DiscussionBoard.Subscription
