import DiscussionBoard.Proofs.Subscription.Clearing
import DiscussionBoard.Proofs.Subscription.Interleaving

/-!
# Freshness of look-ups

In every interleaving of calls, whatever is cached was stored at a moment since which only calls
that have still to clear it have changed it. A look-up of one slot therefore sees all that was
written by the calls that were done before it began.
-/

namespace DiscussionBoard.Subscription.Play

variable {ι : Type} [DecidableEq ι]

/-- What each call keeps in mind at a moment. -/
def memos (play : Play ι) (owner : Id → Id) : Nat → ι → Memo
  | 0 => fun _ => {}
  | turn + 1 =>
    match (play.moment turn).left (play.schedule turn) with
    | .ask request _ =>
      Function.update (play.memos owner turn) (play.schedule turn)
        ((play.memos owner turn (play.schedule turn)).learn owner request
          ((play.moment turn).desk.perform request).1)
    | .done _ | .fail _ => play.memos owner turn

/-- A value that a slot had, since when only calls that have still to clear the slot changed it. -/
def Recent (play : Play ι) (owner : Id → Id) (moment : Nat) (slot : Slot) (value : slot.Value) :
    Prop :=
  ∃ past ≤ moment, value = (play.moment past).desk.rows.at slot ∧
    ∀ turn, past ≤ turn → turn < moment → play.Touches owner turn slot →
      (play.memos owner moment (play.schedule turn)).dirty slot

/-- A value that a slot had after all writes of calls that were done before the caller began. -/
def Seen (play : Play ι) (owner : Id → Id) (caller : ι) (moment : Nat) (slot : Slot)
    (value : slot.Value) : Prop :=
  ∃ past ≤ moment, value = (play.moment past).desk.rows.at slot ∧
    ∀ began, (∀ turn < began, play.schedule turn ≠ caller) →
      ∀ turn, play.Touches owner turn slot → play.Finished began (play.schedule turn) → turn < past

/-- What holds at every moment, as long as the generations of the cache differ. -/
structure Sound (play : Play ι) (owner : Id → Id) (moment : Nat) : Prop where
  owned : (play.moment moment).desk.rows.Owned owner
  enabled : (play.moment moment).desk.cache.enabled = true
  generation : (play.moment moment).desk.cache.generation.toNat = play.clearings moment
  obeys : ∀ caller, ((play.moment moment).left caller).Obeys (rules owner true fun _ => True)
    ((play.calls caller).Ends true {}) (play.memos owner moment caller)
  tickets : ∀ caller ticket, (play.memos owner moment caller).ticket = some ticket →
    ticket.toNat ≤ play.clearings moment
  readings : ∀ caller slot value,
    (play.memos owner moment caller).ticket = some (play.moment moment).desk.cache.generation →
    (play.memos owner moment caller).reading = some ⟨slot, value⟩ →
    play.Recent owner moment slot value
  cached : ∀ slot value, (play.moment moment).desk.cache.at? slot = some value →
    play.Recent owner moment slot value
  known : ∀ caller slot value, ⟨slot, value⟩ ∈ (play.memos owner moment caller).known →
    play.Seen owner caller moment slot value

variable {play : Play ι} {owner : Id → Id} {slot : Slot} {value : slot.Value} {turn moment : Nat}
  {caller : ι} {request : Request} {next : Answer request → Program signature Reply}

theorem memos_succ_of_ask
    (h : (play.moment turn).left (play.schedule turn) = .ask request next) :
    play.memos owner (turn + 1) (play.schedule turn) =
      (play.memos owner turn (play.schedule turn)).learn owner request
        ((play.moment turn).desk.perform request).1 := by
  rw [memos, h]
  exact Function.update_self _ _ _

theorem memos_succ_of_ne (hcaller : caller ≠ play.schedule turn) :
    play.memos owner (turn + 1) caller = play.memos owner turn caller := by
  cases hleft : (play.moment turn).left (play.schedule turn) with
  | ask request next =>
      rw [memos, hleft]
      exact Function.update_of_ne hcaller _ _
  | done reply => rw [memos, hleft]
  | fail fault => rw [memos, hleft]

theorem memos_succ_of_asked_none (h : play.asked turn = none) :
    play.memos owner (turn + 1) = play.memos owner turn := by
  rw [memos]
  rw [asked] at h
  split
  · rename_i hleft
    rw [hleft] at h
    cases h
  · rfl
  · rfl

theorem left_obeys_succ {post : Memo → Reply → Prop}
    (henabled : (play.moment turn).desk.cache.enabled = true)
    (hask : (play.moment turn).left (play.schedule turn) = .ask request next)
    (hobeys : ((play.moment turn).left caller).Obeys (rules owner true fun _ => True) post
      (play.memos owner turn caller)) :
    ((play.moment (turn + 1)).left caller).Obeys (rules owner true fun _ => True) post
      (play.memos owner (turn + 1) caller) := by
  by_cases hcaller : caller = play.schedule turn
  · subst hcaller
    rw [hask] at hobeys
    rw [left_succ_of_ask hask, memos_succ_of_ask hask]
    exact hobeys.2 _ (expects_perform henabled request)
  · rw [left_succ_of_ne hcaller, memos_succ_of_ne hcaller]
    exact hobeys

/-! ### Values of slots -/

theorem Recent.of_stored (h : value = (play.moment moment).desk.rows.at slot) :
    play.Recent owner moment slot value :=
  ⟨moment, Nat.le_refl _, h, fun _ hpast hmoment => (Nat.not_lt_of_le hpast hmoment).elim⟩

/-- A turn that does not clear a slot leaves what is recent so, since a call that changes the slot
has still to clear it. -/
theorem Recent.succ (h : play.Recent owner turn slot value)
    (hask : (play.moment turn).left (play.schedule turn) = .ask request next)
    (hclears : request.clears slot = false) : play.Recent owner (turn + 1) slot value := by
  obtain ⟨past, hpast, hvalue, hdirty⟩ := h
  refine ⟨past, Nat.le_succ_of_le hpast, hvalue, fun write hafter hbefore htouches => ?_⟩
  by_cases hcaller : play.schedule write = play.schedule turn
  · rw [hcaller, memos_succ_of_ask hask, Memo.dirty_learn]
    rcases Nat.lt_succ_iff_lt_or_eq.mp hbefore with hlt | rfl
    · refine .inl ⟨?_, hclears⟩
      rw [← hcaller]
      exact hdirty write hafter hlt htouches
    · -- This turn itself writes the slot, so its caller now owes the clearing.
      obtain ⟨written, hasked, htouched⟩ := htouches
      obtain rfl := Option.some.inj ((asked_of_ask hask).symm.trans hasked)
      exact .inr htouched
  · rw [memos_succ_of_ne hcaller]
    refine hdirty write hafter (Nat.lt_of_le_of_ne (Nat.le_of_lt_succ hbefore) ?_) htouches
    rintro rfl
    exact hcaller rfl

theorem Recent.succ_of_asked_none (h : play.Recent owner turn slot value)
    (hasked : play.asked turn = none) : play.Recent owner (turn + 1) slot value := by
  obtain ⟨past, hpast, hvalue, hdirty⟩ := h
  refine ⟨past, Nat.le_succ_of_le hpast, hvalue, fun write hafter hbefore htouches => ?_⟩
  rw [memos_succ_of_asked_none hasked]
  refine hdirty write hafter (Nat.lt_of_le_of_ne (Nat.le_of_lt_succ hbefore) ?_) htouches
  rintro rfl
  obtain ⟨request, hwritten, -⟩ := htouches
  cases hasked.symm.trans hwritten

theorem Seen.succ (h : play.Seen owner caller turn slot value) :
    play.Seen owner caller (turn + 1) slot value := by
  obtain ⟨past, hpast, hseen⟩ := h
  exact ⟨past, Nat.le_succ_of_le hpast, hseen⟩

namespace Sound

/-- A call that is done has cleared all that it changed. -/
theorem not_dirty (hsound : play.Sound owner moment) (hfinished : play.Finished moment caller) :
    ¬(play.memos owner moment caller).dirty slot := by
  obtain ⟨reply, hdone⟩ := hfinished
  have hends := hsound.obeys caller
  rw [hdone] at hends
  exact hends.tidies slot

theorem seen_of_recent (hsound : play.Sound owner turn)
    (hrecent : play.Recent owner turn slot value) :
    play.Seen owner (play.schedule turn) turn slot value := by
  obtain ⟨past, hpast, hvalue, hdirty⟩ := hrecent
  refine ⟨past, hpast, hvalue, fun began hbegan write htouches hfinished => ?_⟩
  have hle : began ≤ turn := Nat.le_of_not_lt fun hlt => hbegan turn hlt rfl
  by_contra hafter
  exact hsound.not_dirty (hfinished.mono hle)
    (hdirty write (Nat.le_of_not_lt hafter) (Nat.lt_of_lt_of_le (htouches.lt_of_finished hfinished) hle)
      htouches)

theorem start (hrespects : ∀ caller, (play.calls caller).Respects owner) : play.Sound owner 0 where
  owned := Rows.owned_empty
  enabled := rfl
  generation := rfl
  obeys caller := obeys_program _ (hrespects caller) (fun _ h => h.elim) fun _ _ => trivial
  tickets _ _ h := by cases h
  readings _ _ _ h := by cases h
  cached slot value h := by cases slot <;> cases h
  known _ _ _ h := by cases h

theorem succ_of_asked_none (hsound : play.Sound owner turn) (h : play.asked turn = none) :
    play.Sound owner (turn + 1) := by
  have hmoment := moment_succ_of_asked_none h
  have hmemos : play.memos owner (turn + 1) = play.memos owner turn := memos_succ_of_asked_none h
  have hclearings : play.clearings (turn + 1) = play.clearings turn := by
    rw [clearings, h]
    rfl
  constructor
  case readings =>
    intro caller slot value
    rw [hmoment, hmemos]
    intro hticket hreading
    exact (hsound.readings caller slot value hticket hreading).succ_of_asked_none h
  case cached =>
    intro slot value
    rw [hmoment]
    exact fun hcached => (hsound.cached slot value hcached).succ_of_asked_none h
  case known =>
    intro caller slot value
    rw [hmemos]
    exact fun hknown => (hsound.known caller slot value hknown).succ
  all_goals simp only [hmoment, hmemos, hclearings]
  case owned => exact hsound.owned
  case enabled => exact hsound.enabled
  case generation => exact hsound.generation
  case obeys => exact hsound.obeys
  case tickets => exact hsound.tickets

section Ask

variable (hsound : play.Sound owner turn)
  (hask : (play.moment turn).left (play.schedule turn) = .ask request next)
include hsound hask

theorem allows : (rules owner true fun _ => True).allows request
    (play.memos owner turn (play.schedule turn)) := by
  have hobeys := hsound.obeys (play.schedule turn)
  rw [hask] at hobeys
  exact hobeys.1

theorem obeys_succ (caller : ι) : ((play.moment (turn + 1)).left caller).Obeys
    (rules owner true fun _ => True) ((play.calls caller).Ends true {})
    (play.memos owner (turn + 1) caller) :=
  left_obeys_succ hsound.enabled hask (hsound.obeys caller)

theorem generation_succ (hclearings : play.clearings (turn + 1) < UInt64.size) :
    (play.moment (turn + 1)).desk.cache.generation.toNat = play.clearings (turn + 1) := by
  rw [clearings_succ_of_ask hask] at hclearings ⊢
  rw [desk_succ_of_ask hask, Desk.generation_perform, ← hsound.generation]
  rw [← hsound.generation] at hclearings
  cases hclearing : request.isClearing with
  | false => rfl
  | true =>
      rw [hclearing] at hclearings
      rw [if_pos rfl, UInt64.toNat_add]
      exact Nat.mod_eq_of_lt hclearings

theorem tickets_succ (caller : ι) (ticket : UInt64)
    (hticket : (play.memos owner (turn + 1) caller).ticket = some ticket) :
    ticket.toNat ≤ play.clearings (turn + 1) := by
  refine Nat.le_trans ?_ (play.clearings_le_succ turn)
  by_cases hcaller : caller = play.schedule turn
  · subst hcaller
    rw [memos_succ_of_ask hask] at hticket
    rcases Memo.ticket_learn hticket with rfl | hbefore
    · exact Nat.le_of_eq hsound.generation
    · exact hsound.tickets _ ticket hbefore
  · rw [memos_succ_of_ne hcaller] at hticket
    exact hsound.tickets caller ticket hticket

/-- A clearing moves the generation past all tickets that were taken before. -/
theorem ticket_of_succ (hclearings : play.clearings (turn + 1) < UInt64.size)
    (hticket : (play.memos owner turn caller).ticket =
      some (play.moment (turn + 1)).desk.cache.generation) :
    request.isClearing = false ∧
      (play.memos owner turn caller).ticket = some (play.moment turn).desk.cache.generation := by
  have hle := hsound.tickets caller _ hticket
  rw [hsound.generation_succ hask hclearings, clearings_succ_of_ask hask] at hle
  -- After a clearing the ticket would be of a generation still to come when it was taken.
  have hclearing : request.isClearing = false := by
    cases h : request.isClearing with
    | false => rfl
    | true =>
        rw [h] at hle
        exact (Nat.not_succ_le_self _ hle).elim
  refine ⟨hclearing, ?_⟩
  rw [hticket, desk_succ_of_ask hask, Desk.generation_perform, hclearing]
  rfl

theorem readings_succ (hclearings : play.clearings (turn + 1) < UInt64.size) (caller : ι)
    (slot : Slot) (value : slot.Value)
    (hticket : (play.memos owner (turn + 1) caller).ticket =
      some (play.moment (turn + 1)).desk.cache.generation)
    (hreading : (play.memos owner (turn + 1) caller).reading = some ⟨slot, value⟩) :
    play.Recent owner (turn + 1) slot value := by
  have hbefore : request.isClearing = false ∧ play.Recent owner turn slot value := by
    by_cases hcaller : caller = play.schedule turn
    · subst hcaller
      rw [memos_succ_of_ask hask] at hticket hreading
      obtain ⟨hclearing, -, hstored | ⟨hread, hsame⟩⟩ := Memo.reading_learn hreading
      · exact ⟨hclearing, .of_stored hstored⟩
      · rw [hsame] at hticket
        obtain ⟨-, hcurrent⟩ := hsound.ticket_of_succ hask hclearings hticket
        exact ⟨hclearing, hsound.readings _ slot value hcurrent hread⟩
    · rw [memos_succ_of_ne hcaller] at hticket hreading
      obtain ⟨hclearing, hcurrent⟩ := hsound.ticket_of_succ hask hclearings hticket
      exact ⟨hclearing, hsound.readings caller slot value hcurrent hreading⟩
  exact hbefore.2.succ hask (Request.clears_of_not_isClearing hbefore.1 slot)

theorem cached_succ (slot : Slot) (value : slot.Value)
    (hcached : (play.moment (turn + 1)).desk.cache.at? slot = some value) :
    play.Recent owner (turn + 1) slot value := by
  rw [desk_succ_of_ask hask] at hcached
  obtain ⟨hclears, hbefore | ⟨hticket, hreading⟩⟩ :=
    cached_of_allowed (hsound.allows hask) hcached
  · exact (hsound.cached slot value hbefore).succ hask hclears
  · exact (hsound.readings _ slot value hticket hreading).succ hask hclears

theorem known_succ (caller : ι) (slot : Slot) (value : slot.Value)
    (hknown : ⟨slot, value⟩ ∈ (play.memos owner (turn + 1) caller).known) :
    play.Seen owner caller (turn + 1) slot value := by
  apply Seen.succ
  by_cases hcaller : caller = play.schedule turn
  · subst hcaller
    rw [memos_succ_of_ask hask] at hknown
    rcases Memo.known_learn hknown with hbefore | hstored | hcached
    · exact hsound.known _ slot value hbefore
    · exact hsound.seen_of_recent (.of_stored hstored)
    · exact hsound.seen_of_recent (hsound.cached slot value hcached)
  · rw [memos_succ_of_ne hcaller] at hknown
    exact hsound.known caller slot value hknown

theorem succ_of_ask (hclearings : play.clearings (turn + 1) < UInt64.size) :
    play.Sound owner (turn + 1) where
  owned := by
    rw [desk_succ_of_ask hask]
    exact Desk.owned_perform hsound.owned (respects_of_allowed (hsound.allows hask))
  enabled := by
    rw [desk_succ_of_ask hask, Desk.enabled_perform]
    exact hsound.enabled
  generation := hsound.generation_succ hask hclearings
  obeys := hsound.obeys_succ hask
  tickets := hsound.tickets_succ hask
  readings := hsound.readings_succ hask hclearings
  cached := hsound.cached_succ hask
  known := hsound.known_succ hask

end Ask

theorem at_succ (hsound : play.Sound owner turn) (hslot : ¬play.Touches owner turn slot) :
    (play.moment (turn + 1)).desk.rows.at slot = (play.moment turn).desk.rows.at slot := by
  cases hasked : play.asked turn with
  | none => rw [moment_succ_of_asked_none hasked]
  | some request =>
      obtain ⟨next, hask⟩ := ask_of_asked hasked
      rw [desk_succ_of_ask hask]
      exact Desk.at_perform hsound.owned (respects_of_allowed (hsound.allows hask))
        fun htouches => hslot ⟨request, hasked, htouches⟩

end Sound

theorem sound (hrespects : ∀ caller, (play.calls caller).Respects owner) (moment : Nat)
    (hclearings : play.clearings moment < UInt64.size) : play.Sound owner moment := by
  induction moment with
  | zero => exact .start hrespects
  | succ turn ih =>
      have hsound := ih (Nat.lt_of_le_of_lt (play.clearings_le_succ turn) hclearings)
      cases hasked : play.asked turn with
      | none => exact hsound.succ_of_asked_none hasked
      | some request =>
          obtain ⟨next, hask⟩ := ask_of_asked hasked
          exact hsound.succ_of_ask hask hclearings

theorem at_of_untouched (hrespects : ∀ caller, (play.calls caller).Respects owner) {past : Nat}
    (hle : past ≤ moment) (hclearings : play.clearings moment < UInt64.size)
    (hslot : ∀ turn, past ≤ turn → turn < moment → ¬play.Touches owner turn slot) :
    (play.moment moment).desk.rows.at slot = (play.moment past).desk.rows.at slot := by
  induction hle with
  | refl => rfl
  | step hle ih =>
      have hbefore := Nat.lt_of_le_of_lt (play.clearings_le_succ _) hclearings
      rw [(sound hrespects _ hbefore).at_succ (hslot _ hle (Nat.lt_succ_self _))]
      exact ih hbefore fun turn hpast hlt => hslot turn hpast (Nat.lt_succ_of_lt hlt)

/-- In every interleaving that clears the cache less than `2 ^ 64` times, no call fails, a look-up
of one slot replies with a value that the slot had after all writes of the calls that were done
before it began, and what is cached for a slot is stored whenever all calls that changed the slot
are done. -/
theorem lookups_fresh (play : Play ι) (owner : Id → Id)
    (hrespects : ∀ caller, (play.calls caller).Respects owner) (moment : Nat)
    (hclearings : play.clearings moment < UInt64.size) :
    (∀ caller fault, (play.moment moment).left caller ≠ .fail fault) ∧
    (∀ reader slot tell reply began, (play.calls reader).Reads slot tell →
      (play.moment moment).left reader = .done reply →
      (∀ turn < began, play.schedule turn ≠ reader) →
      ∃ past ≤ moment, reply = tell ((play.moment past).desk.rows.at slot) ∧
        ∀ turn, play.Touches owner turn slot → play.Finished began (play.schedule turn) →
          turn < past) ∧
    ∀ slot value, (play.moment moment).desk.cache.at? slot = some value →
      (∀ turn < moment, play.Touches owner turn slot →
        play.Finished moment (play.schedule turn)) →
      value = (play.moment moment).desk.rows.at slot := by
  have hsound := sound hrespects moment hclearings
  refine ⟨fun caller fault hfail => ?_, ?_, ?_⟩
  · have hobeys := hsound.obeys caller
    rw [hfail] at hobeys
    exact hobeys
  · intro reader slot tell reply began hreads hdone hbegan
    have hends := hsound.obeys reader
    rw [hdone] at hends
    obtain ⟨value, hknown, rfl⟩ := hends.knows rfl hreads
    obtain ⟨past, hpast, rfl, hseen⟩ := hsound.known reader slot value hknown
    exact ⟨past, hpast, rfl, hseen began hbegan⟩
  · intro slot value hcached hfinished
    obtain ⟨past, hpast, rfl, hdirty⟩ := hsound.cached slot value hcached
    -- Nobody who is done owes a clearing, so nobody has written the slot since.
    refine (at_of_untouched hrespects hpast hclearings fun turn hafter hbefore htouches => ?_).symm
    exact hsound.not_dirty (hfinished turn hbefore htouches) (hdirty turn hafter hbefore htouches)

/-- A user subscribes while one look-up reads; another look-up begins after that. -/
def crossing : Play Nat where
  calls
    | 1 => .subscribe (.ofNat 7) { id := .ofNat 1, courseId := .ofNat 2 } none false
    | _ => .subscribers { id := .ofNat 1, courseId := .ofNat 2 }
  now _ := default
  register := {}
  schedule turn := [0, 0, 0, 1, 1, 0].getD turn 2

theorem lookups_fresh_crossing :
    (crossing.moment 6).left 0 = .done (.users []) ∧
    (crossing.moment 10).left 2 = .done (.users [.ofNat 7]) ∧
    ∃ past ≤ 10, 3 < past ∧ Reply.users [.ofNat 7] =
      .users (KeySet.toList ((crossing.moment past).desk.rows.at (.followers (.ofNat 1)))) := by
  have hrespects : ∀ caller, (crossing.calls caller).Respects id := by
    intro caller
    unfold crossing
    dsimp only
    split <;> trivial
  obtain ⟨-, hreads, -⟩ := lookups_fresh crossing id hrespects 10 (by decide)
  obtain ⟨past, hpast, hreply, hseen⟩ := hreads 2 (.followers (.ofNat 1)) _ (.users [.ofNat 7]) 6
    (.subscribers _ rfl) rfl (by decide)
  exact ⟨rfl, rfl, past, hpast, hseen 3 ⟨_, rfl, rfl⟩ ⟨_, rfl⟩, hreply⟩

end DiscussionBoard.Subscription.Play
