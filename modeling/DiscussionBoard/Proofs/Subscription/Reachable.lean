import DiscussionBoard.Proofs.Subscription.Outcome

/-!
# Reachable desks

The desks that calls and changes of the register lead to from empty storage. All of them are
coherent, store overrides under the owner of their discussion and list no user twice in a course.
Where calls use a discussion with several forums, the cached sets of followers are right all the
same.
-/

namespace DiscussionBoard.Subscription

inductive Desk.Reachable (owner : Id → Id) (enabled : Bool) : Desk → Prop
  | start : Reachable owner enabled ⟨.empty, {}, { enabled }⟩
  | call {desk : Desk} (hdesk : Reachable owner enabled desk) (now : Instant) {call : Call}
    (hrespects : call.Respects owner) : Reachable owner enabled (desk.run (call.program now)).2
  | enrol {desk : Desk} (hdesk : Reachable owner enabled desk) (course user : Id) :
    Reachable owner enabled { desk with register := desk.register.enrol course user }
  | unenrol {desk : Desk} (hdesk : Reachable owner enabled desk) (course user : Id) :
    Reachable owner enabled { desk with register := desk.register.unenrol course user }
  | prohibit {desk : Desk} (hdesk : Reachable owner enabled desk) (user forum : Id) :
    Reachable owner enabled { desk with register := desk.register.prohibit user forum }

structure Desk.Orderly (owner : Id → Id) (desk : Desk) : Prop where
  coherent : desk.Coherent
  owned : desk.rows.Owned owner
  enrolled_nodup : ∀ course, (desk.register.enrolled course).Nodup

theorem coherent_of_empty (rows : Rows) (register : Register) (enabled : Bool) :
    Desk.Coherent ⟨rows, register, { enabled }⟩ := by
  intro slot value hcached
  cases slot <;> cases hcached

theorem nodup_enrolled_enrol {register : Register}
    (hnodup : ∀ course, (register.enrolled course).Nodup) (course user other : Id) :
    ((register.enrol course user).enrolled other).Nodup := by
  by_cases hother : other = course
  · subst hother
    rw [Register.enrolled_enrol_self]
    split
    · exact hnodup other
    · rename_i hnew
      refine List.nodup_append.mpr ⟨hnodup other, by simp, fun a ha b hb => ?_⟩
      obtain rfl := List.mem_singleton.mp hb
      rintro rfl
      exact hnew ha
  · rw [Register.enrolled_enrol_of_ne register user hother]
    exact hnodup other

theorem nodup_enrolled_unenrol {register : Register}
    (hnodup : ∀ course, (register.enrolled course).Nodup) (course user other : Id) :
    ((register.unenrol course user).enrolled other).Nodup := by
  by_cases hother : other = course
  · subst hother
    rw [Register.enrolled_unenrol_self]
    exact (hnodup other).filter _
  · rw [Register.enrolled_unenrol_of_ne register user hother]
    exact hnodup other

theorem Desk.Orderly.run {owner : Id → Id} {desk : Desk} (horderly : desk.Orderly owner)
    (now : Instant) {call : Call} (hrespects : call.Respects owner) :
    (desk.run (call.program now)).2.Orderly owner := by
  obtain ⟨cache, hrun, hcoherent, howned⟩ :=
    run_program horderly.coherent horderly.owned now hrespects
  rw [hrun]
  exact ⟨hcoherent, howned, horderly.enrolled_nodup⟩

/-- A call that only tells the value of a program leaves a desk in order, and so does the program. -/
theorem Desk.Orderly.run_settled {α : Type} {owner : Id → Id} {desk : Desk}
    (horderly : desk.Orderly owner) {program : Program signature α} {outcome : α × Rows}
    (hsettles : desk.Settles program outcome) (now : Instant) (call : Call) {tell : α → Reply}
    (hcall : call.program now = tell <$> program) (hrespects : call.Respects owner) :
    ∃ cache, desk.run program = (.ok outcome.1, ⟨outcome.2, desk.register, cache⟩) ∧
      Desk.Orderly owner ⟨outcome.2, desk.register, cache⟩ := by
  obtain ⟨cache, hrun⟩ := hsettles
  have hkept := horderly.run now hrespects
  rw [hcall, run_map_of_ok hrun] at hkept
  exact ⟨cache, hrun, hkept⟩

theorem Desk.Reachable.orderly {owner : Id → Id} {enabled : Bool} {desk : Desk}
    (hdesk : desk.Reachable owner enabled) : desk.Orderly owner := by
  induction hdesk with
  | start => exact ⟨coherent_of_empty _ _ _, Rows.owned_empty, fun _ => List.nodup_nil⟩
  | call _ now hrespects ih => exact ih.run now hrespects
  | enrol _ course user ih =>
      exact ⟨ih.coherent, ih.owned, nodup_enrolled_enrol ih.enrolled_nodup course user⟩
  | unenrol _ course user ih =>
      exact ⟨ih.coherent, ih.owned, nodup_enrolled_unenrol ih.enrolled_nodup course user⟩
  | prohibit _ user forum ih => exact ⟨ih.coherent, ih.owned, ih.enrolled_nodup⟩

/-- The desks that calls lead to, whatever forums a discussion is used with, and however the register
changes between them. -/
inductive Desk.Visited (enabled : Bool) : Desk → Prop
  | start (register : Register) : Visited enabled ⟨.empty, register, { enabled }⟩
  | call {desk : Desk} (hdesk : Visited enabled desk) (now : Instant) (call : Call) :
    Visited enabled (desk.run (call.program now)).2
  | register {desk : Desk} (hdesk : Visited enabled desk) (register : Register) :
    Visited enabled { desk with register }

theorem Desk.Visited.followers_coherent {enabled : Bool} {desk : Desk}
    (hdesk : desk.Visited enabled) : desk.CoherentExcept Slot.IsChoices := by
  induction hdesk with
  | start register => exact (coherent_of_empty _ _ _).except _
  | call _ now call ih =>
      obtain ⟨-, -, hkept⟩ := run_call_followers ih now call
      exact hkept
  | register _ register ih => exact ih

end DiscussionBoard.Subscription
