import DiscussionBoard.Proofs.Subscription.Clearing

/-!
# Coherence of the cache

The cache is coherent when every snapshot in it equals the stored rows. One call after the other
keeps it so. A call that fails may leave behind what it changed and did not clear. The sets of
followers stay coherent even where a discussion is used with several forums.
-/

namespace DiscussionBoard.Subscription

variable {owner : Id → Id} {enabled : Bool} {tolerated stale : Slot → Prop} {desk : Desk}

/-- Every snapshot, but for those of stale slots, equals the stored rows. -/
def Desk.CoherentExcept (desk : Desk) (stale : Slot → Prop) : Prop :=
  ∀ slot value, ¬stale slot → desk.cache.at? slot = some value → value = desk.rows.at slot

def Desk.Coherent (desk : Desk) : Prop :=
  ∀ slot value, desk.cache.at? slot = some value → value = desk.rows.at slot

theorem Desk.coherent_iff : desk.Coherent ↔ desk.CoherentExcept fun _ => False := by
  simp [Coherent, CoherentExcept]

theorem Desk.Coherent.except (hcoherent : desk.Coherent) (stale : Slot → Prop) :
    desk.CoherentExcept stale :=
  fun slot value _ hcached => hcoherent slot value hcached

/-- A memo of the one call at work: what it read is still stored, and all is coherent that is not
stale anyway and not to be cleared by the call. -/
structure Memo.Fits (owner : Id → Id) (enabled : Bool) (stale : Slot → Prop) (memo : Memo)
    (desk : Desk) : Prop where
  owned : desk.rows.Owned owner
  enabled : desk.cache.enabled = enabled
  reading : ∀ slot value, memo.reading = some ⟨slot, value⟩ → value = desk.rows.at slot
  coherent : desk.CoherentExcept fun slot => stale slot ∨ memo.dirty slot

theorem Memo.Fits.start (hcoherent : desk.CoherentExcept stale) (howned : desk.rows.Owned owner) :
    ({} : Memo).Fits owner desk.cache.enabled stale desk where
  owned := howned
  enabled := rfl
  reading := nofun
  coherent slot value hclean := hcoherent slot value fun h => hclean (.inl h)

section Slot

variable {memo : Memo} {request : Request} {slot : Slot} {value : slot.Value}

/-- What a call read is still stored after a request that leaves alone what it does not touch. -/
theorem Memo.reading_perform
    (hsteady : ¬request.Touches owner slot → (desk.perform request).2.rows.at slot = desk.rows.at slot)
    (hbefore : ∀ value, memo.reading = some ⟨slot, value⟩ → value = desk.rows.at slot)
    (hreading : (memo.learn owner request (desk.perform request).1).reading = some ⟨slot, value⟩) :
    value = (desk.perform request).2.rows.at slot := by
  obtain ⟨-, hslot, hvalue⟩ := Memo.reading_learn hreading
  rw [hsteady hslot]
  exact hvalue.elim id fun hstill => hbefore value hstill.1

/-- A snapshot that need not be cleared is still right after an allowed request. -/
theorem Memo.cached_perform (hallows : (rules owner enabled tolerated).allows request memo)
    (hsteady : ¬request.Touches owner slot → (desk.perform request).2.rows.at slot = desk.rows.at slot)
    (hreading : ∀ value, memo.reading = some ⟨slot, value⟩ → value = desk.rows.at slot)
    (hbefore : ∀ value, ¬memo.dirty slot → desk.cache.at? slot = some value →
      value = desk.rows.at slot)
    (hclean : ¬(memo.learn owner request (desk.perform request).1).dirty slot)
    (hcached : (desk.perform request).2.cache.at? slot = some value) :
    value = (desk.perform request).2.rows.at slot := by
  rw [Memo.dirty_learn, not_or] at hclean
  obtain ⟨hkept, hslot⟩ := hclean
  obtain ⟨hclears, hfound⟩ := cached_of_allowed hallows hcached
  rw [hsteady hslot]
  rcases hfound with hfound | ⟨-, hfound⟩
  · exact hbefore value (fun h => hkept ⟨h, hclears⟩) hfound
  · exact hreading value hfound

end Slot

/-- One allowed request. -/
theorem Memo.Fits.perform {memo : Memo} (hfits : memo.Fits owner enabled stale desk)
    {request : Request} (hallows : (rules owner enabled tolerated).allows request memo) :
    (rules owner enabled tolerated).expects request (desk.perform request).1 ∧
      (memo.learn owner request (desk.perform request).1).Fits owner enabled stale
        (desk.perform request).2 := by
  have hrespects := respects_of_allowed hallows
  have hsteady : ∀ slot, ¬request.Touches owner slot →
      (desk.perform request).2.rows.at slot = desk.rows.at slot :=
    fun _ => desk.at_perform hfits.owned hrespects
  refine ⟨expects_perform hfits.enabled request, desk.owned_perform hfits.owned hrespects,
    (desk.enabled_perform request).trans hfits.enabled, ?_, ?_⟩
  · intro slot value hreading
    exact Memo.reading_perform (hsteady slot) (hfits.reading slot) hreading
  · intro slot value hclean hcached
    obtain ⟨hfresh, hclean⟩ := not_or.mp hclean
    refine Memo.cached_perform hallows (hsteady slot) (hfits.reading slot) ?_ hclean hcached
    intro value hdirty hfound
    exact hfits.coherent slot value (not_or.mpr ⟨hfresh, hdirty⟩) hfound

/-! ### Whole calls -/

/-- A program that clears what it changes keeps a desk coherent. -/
theorem run_tidy {α : Type} {program : Program signature α} (hcoherent : desk.Coherent)
    (howned : desk.rows.Owned owner)
    (hobeys : program.Obeys (rules owner desk.cache.enabled fun _ => True)
      (fun memo _ => ({} : Memo).Tidies memo) {}) :
    ∃ value, (desk.run program).1 = .ok value ∧ (desk.run program).2.Coherent ∧
      (desk.run program).2.rows.Owned owner ∧
      (desk.run program).2.cache.enabled = desk.cache.enabled := by
  obtain ⟨value, memo, hvalue, htidies, hfits⟩ :=
    hobeys.run (Memo.Fits owner desk.cache.enabled fun _ => False)
      (fun _ _ _ hallows hfits => hfits.perform hallows)
      (Memo.Fits.start (Desk.coherent_iff.mp hcoherent) howned)
  refine ⟨value, hvalue, fun slot found hcached => ?_, hfits.owned, hfits.enabled⟩
  exact hfits.coherent slot found (not_or.mpr ⟨id, htidies slot⟩) hcached

theorem run_call (hcoherent : desk.Coherent) (howned : desk.rows.Owned owner) (now : Instant)
    {call : Call} (hrespects : call.Respects owner) :
    ∃ reply, (desk.run (call.program now)).1 = .ok reply ∧
      (desk.run (call.program now)).2.Coherent ∧
      (desk.run (call.program now)).2.rows.Owned owner ∧
      (desk.run (call.program now)).2.cache.enabled = desk.cache.enabled :=
  run_tidy hcoherent howned ((obeys_program now hrespects (fun _ _ => trivial)
    fun _ _ => trivial).mono fun _ _ hends => hends.tidies)

/-! ### Sets of followers -/

def Slot.IsChoices : Slot → Prop
  | .followers _ => False
  | .choices _ _ => True

/-- A memo of the one call at work on a desk whose cached choices may be stale. -/
structure Memo.FitsFollowers (enabled : Bool) (memo : Memo) (desk : Desk) : Prop where
  enabled : desk.cache.enabled = enabled
  reading : ∀ forum users, memo.reading = some ⟨.followers forum, users⟩ →
    users = desk.rows.at (.followers forum)
  cached : ∀ forum users, ¬memo.dirty (.followers forum) →
    desk.cache.at? (.followers forum) = some users → users = desk.rows.at (.followers forum)

theorem Memo.FitsFollowers.perform {memo : Memo} (hfits : memo.FitsFollowers enabled desk)
    {request : Request} (hallows : (rules owner enabled tolerated).allows request memo) :
    (rules owner enabled tolerated).expects request (desk.perform request).1 ∧
      (memo.learn owner request (desk.perform request).1).FitsFollowers enabled
        (desk.perform request).2 := by
  refine ⟨expects_perform hfits.enabled request, (desk.enabled_perform request).trans hfits.enabled,
    ?_, ?_⟩
  · intro forum users hreading
    exact Memo.reading_perform desk.followers_perform (hfits.reading forum) hreading
  · intro forum users hclean hcached
    exact Memo.cached_perform hallows desk.followers_perform (hfits.reading forum)
      (hfits.cached forum) hclean hcached

/-- A call uses its discussion, if it has one, with a single forum. -/
theorem Call.exists_respects (call : Call) : ∃ owner, call.Respects owner := by
  cases call with
  | isSubscribed _ forum discussion | subscribe _ forum discussion _
  | unsubscribe _ forum discussion _ =>
      cases discussion with
      | none => exact ⟨fun _ => default, trivial⟩
      | some discussion => exact ⟨fun _ => forum.id, rfl⟩
  | discussionSubscribers forum _ => exact ⟨fun _ => forum.id, rfl⟩
  | _ => exact ⟨fun _ => default, trivial⟩

/-- A call keeps the sets of followers coherent, whatever forum its discussion is used with
elsewhere. -/
theorem run_call_followers (hcoherent : desk.CoherentExcept Slot.IsChoices) (now : Instant)
    (call : Call) :
    ∃ reply, (desk.run (call.program now)).1 = .ok reply ∧
      (desk.run (call.program now)).2.CoherentExcept Slot.IsChoices := by
  obtain ⟨owner, hrespects⟩ := call.exists_respects
  have hobeys : (call.program now).Obeys (rules owner desk.cache.enabled fun _ => True)
      (call.Ends desk.cache.enabled {}) {} :=
    obeys_program now hrespects (fun _ _ => trivial) fun _ _ => trivial
  have hstart : ({} : Memo).FitsFollowers desk.cache.enabled desk :=
    ⟨rfl, nofun, fun forum users _ => hcoherent (.followers forum) users id⟩
  obtain ⟨reply, memo, hreply, hends, hfits⟩ := hobeys.run (Memo.FitsFollowers desk.cache.enabled)
    (fun _ _ _ hallows hfits => hfits.perform hallows) hstart
  refine ⟨reply, hreply, fun slot value hfresh hcached => ?_⟩
  cases slot with
  | followers forum => exact hfits.cached forum value (hends.tidies (.followers forum)) hcached
  | choices user forum => exact (hfresh trivial).elim

end DiscussionBoard.Subscription
