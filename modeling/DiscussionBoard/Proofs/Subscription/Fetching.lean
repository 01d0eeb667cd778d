import DiscussionBoard.Proofs.Discipline
import DiscussionBoard.Proofs.Subscription.Call
import DiscussionBoard.Proofs.Subscription.History

/-!
# When storage is read

A call that needs a slot reads it from storage exactly if the cache cannot answer. Whether it can
follows from the calls made before, whatever storage and register answered: one of them read the
slot, and none since has cleared it.
-/

namespace DiscussionBoard

namespace Program

variable {signature : Signature} {σ α β : Type}
  {perform : (request : signature.Request) → σ → signature.Answer request × σ}

/-- The requests that a run makes, in order. -/
def asked (perform : (request : signature.Request) → σ → signature.Answer request × σ) :
    Program signature α → σ → List signature.Request
  | done _, _ => []
  | fail _, _ => []
  | ask request next, state =>
    let (answer, state) := perform request state
    request :: asked perform (next answer) state

theorem asked_bind_of_ok {program : Program signature α} {state last : σ} {value : α}
    (hrun : run perform program state = (.ok value, last)) (rest : α → Program signature β) :
    asked perform (program >>= rest) state =
      asked perform program state ++ asked perform (rest value) last := by
  induction program generalizing state with
  | done found =>
      cases hrun
      rfl
  | fail fault => cases hrun
  | ask request next ih => exact congrArg (request :: ·) (ih _ hrun)

end Program

namespace Subscription

variable {σ α β : Type}

/-- Storage and register, where every request gets some answer. -/
structure Ports (σ : Type) where
  rows : (request : RowRequest) → σ → request.Answer × σ
  register : (request : RegisterRequest) → σ → request.Answer × σ

namespace Ports

/-- Answers one request. Nobody but the programs writes the cache. -/
def perform (ports : Ports σ) : (request : Request) → σ × Cache → Answer request × (σ × Cache)
  | .rows request, (state, cache) =>
    let (answer, state) := ports.rows request state
    (answer, state, cache)
  | .register request, (state, cache) =>
    let (answer, state) := ports.register request state
    (answer, state, cache)
  | .cache request, (state, cache) =>
    let (answer, cache) := Cache.perform request cache
    (answer, state, cache)

def run (ports : Ports σ) (program : Program signature α) (state : σ × Cache) :
    Except Fault α × (σ × Cache) :=
  program.run ports.perform state

def asked (ports : Ports σ) (program : Program signature α) (state : σ × Cache) : List Request :=
  program.asked ports.perform state

section Bind

variable {ports : Ports σ} {program : Program signature α} {state last : σ × Cache} {value : α}

theorem run_bind_of_ok (hrun : ports.run program state = (.ok value, last))
    (rest : α → Program signature β) :
    ports.run (program >>= rest) state = ports.run (rest value) last := by
  refine (Program.run_bind _ program rest state).trans ?_
  rw [run] at hrun
  rw [hrun, run]

theorem asked_bind_of_ok (hrun : ports.run program state = (.ok value, last))
    (rest : α → Program signature β) :
    ports.asked (program >>= rest) state =
      ports.asked program state ++ ports.asked (rest value) last :=
  Program.asked_bind_of_ok hrun rest

end Bind

/-- Makes calls one after the other, and tells what each of them asked. -/
def play (ports : Ports σ) :
    List (Instant × Call) → σ × Cache → List (Call × List Request) × (σ × Cache)
  | [], state => ([], state)
  | (now, call) :: rest, state =>
    let (history, last) := ports.play rest (ports.run (call.program now) state).2
    ((call, ports.asked (call.program now) state) :: history, last)

end Ports

/-- The request that reads a slot from storage. -/
def Slot.request : Slot → Request
  | .followers forum => .rows (.followersOf forum)
  | .choices user forum => .rows (.overridesOf user forum)

theorem Slot.request_inj {slot key : Slot} (h : slot.request = key.request) : slot = key := by
  cases slot <;> cases key <;> cases h <;> rfl

theorem Slot.request_ne_cache (slot : Slot) (request : CacheRequest) :
    slot.request ≠ .cache request := by
  cases slot <;> nofun

def Cache.Knows (cache : Cache) (slot : Slot) : Prop :=
  (cache.at? slot).isSome = true

namespace Call

/-- The slots that a call uses. -/
def Needs : Call → Slot → Prop
  | isSubscribed user forum discussion, slot =>
    forum.subscriptionMode.isOptional = true ∧
      (slot = .followers forum.id ∨ discussion.isSome = true ∧ slot = .choices user forum.id)
  | subscribers forum, slot | discussionSubscribers forum _, slot
  | subscribe _ forum (some _) _, slot | unsubscribe _ forum (some _) _, slot =>
    forum.subscriptionMode.isOptional = true ∧ slot = .followers forum.id
  | overridesOf user forum, slot => slot = .choices user forum
  | _, _ => False

/-- The forums of which a call clears all slots. -/
def ClearsForum : Call → Id → Prop
  | subscribe _ forum none _, key | unsubscribe _ forum none _, key => key = forum.id
  | enrolled _ forums, key =>
    ∃ forum ∈ forums, forum.subscriptionMode = .initial ∧ key = forum.id
  | unenrolled _ forums, key => ∃ forum ∈ forums, key = forum.id
  | eraseForum forum, key => key = forum
  | resetCache, _ => True
  | _, _ => False

/-- The slots that a call clears. -/
def Clears : Call → Slot → Prop
  | eraseUser _, .followers _ => True
  | eraseUser user, .choices key _ => key = user
  | subscribe user forum (some _) _, slot | unsubscribe user forum (some _) _, slot =>
    slot = .choices user forum.id
  | call, .followers forum | call, .choices _ forum => call.ClearsForum forum

end Call

/-- Whether a slot was read by one of the calls made so far, and not cleared by a later one. -/
def Loaded (slot : Slot) (history : List (Call × List Request)) : Prop :=
  ∃ earlier call asked later, history = earlier ++ (call, asked) :: later ∧
    slot.request ∈ asked ∧ ∀ entry ∈ later, ¬entry.1.Clears slot

/-- What a run does about a slot, where `needs` and `clears` tell whether it uses the slot and
whether it clears it. -/
structure Fetched (slot : Slot) (needs clears : Prop) (before : Cache) (asked : List Request)
    (after : Cache) : Prop where
  enabled : after.enabled = true
  asked_iff : slot.request ∈ asked ↔ needs ∧ ¬before.Knows slot
  once : asked.count slot.request ≤ 1
  knows_iff : after.Knows slot ↔ ¬clears ∧ (needs ∨ before.Knows slot)

def Fetches (program : Program signature α) (slot : Slot) (needs clears : Prop) : Prop :=
  ∀ (σ : Type) (ports : Ports σ) (state : σ) (cache : Cache), cache.enabled = true →
    ∃ value last after, ports.run program (state, cache) = (.ok value, last, after) ∧
      Fetched slot needs clears cache (ports.asked program (state, cache)) after

/-! ### Parts of programs -/

section Parts

variable {slot : Slot} {needs clears needs' clears' : Prop} {program : Program signature α}
  {rest : α → Program signature β}

theorem Fetched.of_not_mem {before after : Cache} {asked : List Request}
    (hasked : slot.request ∉ asked) (henabled : after.enabled = true)
    (hneeds : needs → before.Knows slot)
    (hknows : after.Knows slot ↔ ¬clears ∧ before.Knows slot) :
    Fetched slot needs clears before asked after where
  enabled := henabled
  asked_iff := iff_of_false hasked fun h => h.2 (hneeds h.1)
  once := by
    rw [List.count_eq_zero_of_not_mem hasked]
    exact Nat.zero_le 1
  knows_iff := by rw [hknows, or_iff_right_of_imp hneeds]

theorem Fetched.append {before middle after : Cache} {asked asked' : List Request}
    (hfirst : Fetched slot needs clears before asked middle)
    (hsecond : Fetched slot needs' clears' middle asked' after) (hlater : clears → ¬needs') :
    Fetched slot (needs ∨ needs') (clears ∨ clears') before (asked ++ asked') after where
  enabled := hsecond.enabled
  asked_iff := by
    rw [List.mem_append, hfirst.asked_iff, hsecond.asked_iff, hfirst.knows_iff]
    tauto
  once := by
    rw [List.count_append]
    by_cases hasked : slot.request ∈ asked
    -- What the first part read, the second part finds in the cache or does not need.
    · have hfound : slot.request ∉ asked' := by
        rw [hsecond.asked_iff, hfirst.knows_iff]
        rw [hfirst.asked_iff] at hasked
        tauto
      rw [List.count_eq_zero_of_not_mem hfound]
      exact hfirst.once
    · rw [List.count_eq_zero_of_not_mem hasked, Nat.zero_add]
      exact hsecond.once
  knows_iff := by
    rw [hsecond.knows_iff, hfirst.knows_iff]
    tauto

theorem Fetches.congr (hprogram : Fetches program slot needs clears) (hneeds : needs ↔ needs')
    (hclears : clears ↔ clears') : Fetches program slot needs' clears' := by
  rwa [propext hneeds, propext hclears] at hprogram

/-- What is cleared by the first part must not be needed by the second. -/
theorem Fetches.bind (hprogram : Fetches program slot needs clears)
    (hrest : ∀ value, Fetches (rest value) slot needs' clears') (hlater : clears → ¬needs') :
    Fetches (program >>= rest) slot (needs ∨ needs') (clears ∨ clears') := by
  intro σ ports state cache henabled
  obtain ⟨value, middle, between, hrun, hfirst⟩ := hprogram σ ports state cache henabled
  obtain ⟨result, last, after, hrunRest, hsecond⟩ :=
    hrest value σ ports middle between hfirst.enabled
  refine ⟨result, last, after, ?_, ?_⟩
  · rw [Ports.run_bind_of_ok hrun, hrunRest]
  · rw [Ports.asked_bind_of_ok hrun]
    exact hfirst.append hsecond hlater

theorem fetches_pure (value : α) : Fetches (pure value) slot False False := by
  intro σ ports state cache henabled
  exact ⟨value, state, cache, rfl, .of_not_mem List.not_mem_nil henabled False.elim (by simp)⟩

theorem Fetches.before_pure (hprogram : Fetches program slot needs clears) (f : α → β) :
    Fetches (do
      let value ← program
      pure (f value)) slot needs clears :=
  (hprogram.bind (fun value => fetches_pure (f value)) fun _ => id).congr (by simp) (by simp)

theorem Fetches.map (hprogram : Fetches program slot needs clears) (f : α → β) :
    Fetches (f <$> program) slot needs clears := by
  rw [map_eq_pure_bind]
  exact hprogram.before_pure f

/-- A part that does nothing about the slot. -/
theorem Fetches.after_quiet (hprogram : Fetches program slot False False)
    (hrest : ∀ value, Fetches (rest value) slot needs clears) :
    Fetches (program >>= rest) slot needs clears :=
  (hprogram.bind hrest False.elim).congr (by simp) (by simp)

end Parts

/-! ### Single requests -/

section Requests

variable {slot : Slot}

/-- The requests that read a whole slot. -/
def RowRequest.readsSlot : RowRequest → Bool
  | .followersOf _ | .overridesOf _ _ => true
  | _ => false

theorem fetches_askRows (request : RowRequest) (hquiet : request.readsSlot = false) :
    Fetches (askRows request) slot False False := by
  intro σ ports state cache henabled
  have hother : slot.request ≠ .rows request := by
    cases slot <;> rintro ⟨⟩ <;> cases hquiet
  exact ⟨_, _, cache, rfl,
    .of_not_mem (mt List.mem_singleton.mp hother) henabled False.elim (by simp)⟩

theorem fetches_askRegister (request : RegisterRequest) :
    Fetches (askRegister request) slot False False := by
  intro σ ports state cache henabled
  have hother : slot.request ≠ .register request := by cases slot <;> nofun
  exact ⟨_, _, cache, rfl,
    .of_not_mem (mt List.mem_singleton.mp hother) henabled False.elim (by simp)⟩

theorem fetches_askCache {request : CacheRequest} {clears : Prop}
    (hknows : ∀ cache : Cache,
      (Cache.perform request cache).2.Knows slot ↔ ¬clears ∧ cache.Knows slot) :
    Fetches (askCache request) slot False clears := by
  intro σ ports state cache henabled
  have hasked : slot.request ∉ [.cache request] :=
    mt List.mem_singleton.mp (slot.request_ne_cache request)
  have hafter : (Cache.perform request cache).2.enabled = true := by
    rw [Cache.enabled_perform, henabled]
  exact ⟨_, state, (Cache.perform request cache).2, rfl,
    .of_not_mem hasked hafter False.elim (hknows cache)⟩

theorem fetches_invalidate (scope : Scope) :
    Fetches (invalidate scope) slot False (scope.covers slot = true) := by
  refine fetches_askCache fun cache => ?_
  simp only [Cache.Knows, Cache.perform, Option.isSome_iff_exists, Cache.at?_invalidate,
    exists_and_left, Bool.not_eq_true]

theorem fetches_resetCache : Fetches resetCache slot False True := by
  refine fetches_askCache fun cache => ?_
  simp [Cache.Knows, Cache.perform, Cache.at?_reset]

end Requests

/-! ### Reading through the cache -/

section Reading

variable {slot : Slot} {cache : Cache}

theorem Fetched.of_hit (key : Slot) {hit : key.Value} (henabled : cache.enabled = true)
    (hhit : cache.at? key = some hit) (lookup : CacheRequest) :
    Fetched slot (slot = key) False cache [.cache lookup] cache := by
  have hasked : slot.request ∉ [.cache lookup] :=
    mt List.mem_singleton.mp (slot.request_ne_cache lookup)
  refine .of_not_mem hasked henabled ?_ (by simp)
  rintro rfl
  exact Option.isSome_of_eq_some hhit

theorem Fetched.of_miss (key : Slot) (henabled : cache.enabled = true)
    (hmiss : cache.at? key = none) (value : key.Value) (lookup kept : CacheRequest) :
    Fetched slot (slot = key) False cache
      [.cache lookup, .cache .generation, key.request, .cache kept]
      (Cache.perform (.keep key value cache.generation) cache).2 := by
  have haccepts : cache.accepts cache.generation = true := by simp [Cache.accepts, henabled]
  have hafter := (Cache.enabled_perform (.keep key value cache.generation) cache).trans henabled
  have hother := slot.request_ne_cache
  by_cases hslot : slot = key
  · subst hslot
    have hunknown : ¬cache.Knows slot := by simp [Cache.Knows, hmiss]
    refine ⟨hafter, by simp [hunknown], ?_, ?_⟩
    · simp [(hother _).symm]
    · rw [Cache.Knows, at?_keep_self haccepts]
      simp
  · have hasked : slot.request ∉
        [.cache lookup, .cache .generation, key.request, .cache kept] := by
      simp [hother, mt Slot.request_inj hslot]
    refine .of_not_mem hasked hafter (fun h => (hslot h).elim) ?_
    rw [Cache.Knows, at?_keep_of_ne hslot, Cache.Knows, not_false_iff, true_and]

theorem fetches_askCache_bind {request : CacheRequest} {rest : request.Answer → Program signature α}
    {needs clears : Prop}
    (hrest : ∀ (σ : Type) (ports : Ports σ) (state : σ) (cache : Cache), cache.enabled = true →
      let found := Cache.perform request cache
      ∃ value last after, ports.run (rest found.1) (state, found.2) = (.ok value, last, after) ∧
        Fetched slot needs clears cache
          (.cache request :: ports.asked (rest found.1) (state, found.2)) after) :
    Fetches (askCache request >>= rest) slot needs clears :=
  hrest

theorem fetches_followersOf (forum : Id) :
    Fetches (followersOf forum) slot (slot = .followers forum) False := by
  refine fetches_askCache_bind fun σ ports state cache henabled => ?_
  dsimp only [Cache.perform]
  cases hcached : cache.followersOf forum with
  | some users =>
      exact ⟨users, state, cache, rfl, .of_hit (.followers forum) henabled hcached _⟩
  | none => exact ⟨_, _, _, rfl, .of_miss (.followers forum) henabled hcached _ _ _⟩

theorem fetches_overridesOf (user forum : Id) :
    Fetches (overridesOf user forum) slot (slot = .choices user forum) False := by
  refine fetches_askCache_bind fun σ ports state cache henabled => ?_
  dsimp only [Cache.perform]
  cases hcached : cache.overridesOf user forum with
  | some choices =>
      exact ⟨choices, state, cache, rfl, .of_hit (.choices user forum) henabled hcached _⟩
  | none => exact ⟨_, _, _, rfl, .of_miss (.choices user forum) henabled hcached _ _ _⟩

/-- While the cache is enabled, programs take the way through it. -/
theorem Fetches.ifEnabled {program other : Program signature α} {needs clears : Prop}
    (hprogram : Fetches program slot needs clears) :
    Fetches (do
      if ← askCache .isEnabled then program
      else other) slot needs clears := by
  refine fetches_askCache_bind fun σ ports state cache henabled => ?_
  obtain ⟨value, last, after, hrun, hfetched⟩ := hprogram σ ports state cache henabled
  have hasked : slot.request ∉ [.cache .isEnabled] :=
    mt List.mem_singleton.mp (slot.request_ne_cache .isEnabled)
  have hfirst : Fetched slot False False cache [.cache .isEnabled] cache :=
    .of_not_mem hasked henabled False.elim (by simp)
  dsimp only [Cache.perform]
  rw [if_pos henabled]
  refine ⟨value, last, after, hrun, ?_⟩
  simpa using hfirst.append hfetched False.elim

end Reading

/-! ### Look-ups -/

section Lookups

variable {slot : Slot} {forum : Forum}

theorem fetches_forumLevel (user : Id) (forum : Forum) :
    Fetches (forumLevel user forum) slot
      (forum.subscriptionMode.isOptional = true ∧ slot = .followers forum.id) False := by
  by_cases hmode : forum.subscriptionMode.isOptional = true
  · rw [forumLevel_of_isOptional hmode]
    exact ((fetches_followersOf forum.id).before_pure _).ifEnabled.congr (by simp [hmode]) .rfl
  · suffices hquiet : Fetches (forumLevel user forum) slot False False from
      hquiet.congr (by simp [hmode]) .rfl
    unfold forumLevel
    cases hforum : forum.subscriptionMode with
    | forced => exact fetches_askRegister _
    | disallowed => exact fetches_pure false
    | choose | initial => simp [hforum, SubscriptionMode.isOptional] at hmode

theorem fetches_storedPreference (user discussion : Id) :
    Fetches (storedPreference user discussion) slot False False :=
  (fetches_askRows _ rfl).before_pure _

theorem fetches_preference (user forum discussion : Id) :
    Fetches (preference user forum discussion) slot (slot = .choices user forum) False :=
  ((fetches_overridesOf user forum).before_pure _).ifEnabled

theorem fetches_isSubscribed (user : Id) (forum : Forum) (discussion : Option Id) :
    Fetches (isSubscribed user forum discussion) slot
      (forum.subscriptionMode.isOptional = true ∧ (slot = .followers forum.id ∨
        discussion.isSome = true ∧ slot = .choices user forum.id)) False := by
  have hlevel : Fetches (forumLevel user forum) slot _ _ := fetches_forumLevel user forum
  cases discussion with
  | none => exact (hlevel.before_pure _).congr (by simp) .rfl
  | some discussion =>
      rw [isSubscribed]
      by_cases hmode : forum.subscriptionMode.isOptional = true
      · have hown : ∀ inherited : Bool, Fetches (do
            let own ← preference user forum.id discussion
            pure ((own.map (·.isSubscribed)).getD inherited))
            slot (slot = .choices user forum.id) False :=
          fun inherited => (fetches_preference user forum.id discussion).before_pure _
        simp only [if_pos hmode]
        exact (hlevel.bind hown False.elim).congr (by simp [hmode]) or_self_iff
      · simp only [if_neg hmode]
        exact (hlevel.before_pure _).congr (by simp [hmode]) .rfl

theorem fetches_allowedAmong (forum : Id) (users : List Id) :
    Fetches (allowedAmong forum users) slot False False := by
  induction users with
  | nil => exact fetches_pure []
  | cons user rest ih =>
      exact (fetches_askRegister _).after_quiet fun allowed => ih.before_pure _

theorem fetches_subscribers (forum : Forum) :
    Fetches (subscribers forum) slot
      (forum.subscriptionMode.isOptional = true ∧ slot = .followers forum.id) False := by
  by_cases hmode : forum.subscriptionMode.isOptional = true
  · rw [subscribers_of_isOptional hmode]
    exact ((fetches_followersOf forum.id).before_pure _).congr (by simp [hmode]) .rfl
  · suffices hquiet : Fetches (subscribers forum) slot False False from
      hquiet.congr (by simp [hmode]) .rfl
    unfold subscribers
    cases hforum : forum.subscriptionMode with
    | forced =>
        exact (fetches_askRegister _).after_quiet fun enrolled =>
          (fetches_allowedAmong forum.id enrolled).before_pure _
    | disallowed => exact fetches_pure []
    | choose | initial => simp [hforum, SubscriptionMode.isOptional] at hmode

theorem fetches_discussionSubscribers (forum : Forum) (discussion : Id) :
    Fetches (discussionSubscribers forum discussion) slot
      (forum.subscriptionMode.isOptional = true ∧ slot = .followers forum.id) False := by
  rw [discussionSubscribers]
  split
  · rename_i hmode
    have hchoices : ∀ users : KeySet Id, Fetches (do
        let choices ← askRows (.overridesFor discussion)
        pure (choices.foldl applyPreference users).toList) slot False False :=
      fun users => (fetches_askRows _ rfl).before_pure _
    exact ((fetches_followersOf forum.id).bind hchoices fun _ => id).congr (by simp [hmode])
      or_self_iff
  · exact fetches_subscribers forum

end Lookups

/-! ### Changes -/

section Changes

variable {user forum : Id} {slot : Slot}

theorem covers_forum_iff :
    (Scope.forum forum).covers slot = true ↔ (Call.eraseForum forum).Clears slot := by
  cases slot <;> exact decide_eq_true_iff.trans eq_comm

theorem covers_userForum_iff :
    (Scope.userForum user forum).covers slot = true ↔ slot = .choices user forum := by
  cases slot with
  | followers key => simp [Scope.covers, Scope.coversFollowers]
  | choices keyUser keyForum =>
      rw [Slot.choices.injEq, ← Prod.mk.injEq]
      exact decide_eq_true_iff.trans eq_comm

theorem covers_user_iff :
    (Scope.user user).covers slot = true ↔ (Call.eraseUser user).Clears slot := by
  cases slot with
  | followers key => exact iff_of_true rfl trivial
  | choices keyUser keyForum => exact decide_eq_true_iff.trans eq_comm

theorem fetches_clearOverrides (user forum : Id) :
    Fetches (clearOverrides user forum) slot False
      ((Scope.userForum user forum).covers slot = true) :=
  (fetches_askRows _ rfl).after_quiet fun _ => fetches_invalidate _

theorem fetches_finishChange (user forum : Id) (userRequest changed : Bool) :
    Fetches (do
      if userRequest then clearOverrides user forum
      invalidate (.forum forum)
      pure changed : Program signature Bool) slot False
      ((Scope.forum forum).covers slot = true) := by
  have hlast : Fetches (do
      invalidate (.forum forum)
      pure changed) slot False ((Scope.forum forum).covers slot = true) :=
    (fetches_invalidate _).before_pure _
  cases userRequest with
  | false => exact hlast
  | true =>
      have hcovered : (Scope.userForum user forum).covers slot = true →
          (Scope.forum forum).covers slot = true := by
        intro h
        rw [covers_userForum_iff.mp h]
        exact covers_forum_choices
      exact ((fetches_clearOverrides user forum).bind (fun _ => hlast) fun _ => id).congr
        or_self_iff (or_iff_right_of_imp hcovered)

theorem fetches_changeForum (wanted : Preference) (user forum : Id) (userRequest : Bool) :
    Fetches (changeForum wanted user forum userRequest) slot False
      ((Scope.forum forum).covers slot = true) := by
  cases wanted with
  | subscribed =>
      exact (fetches_askRows (.follow user forum) rfl).after_quiet
        fun changed => fetches_finishChange user forum userRequest changed
  | unsubscribed =>
      exact (fetches_askRows (.unfollow user forum) rfl).after_quiet
        fun changed => fetches_finishChange user forum userRequest changed

theorem fetches_settleDiscussion (now : Instant) (wanted : Preference) (user forum discussion : Id)
    (inherited : Bool) (existing : Option Preference) :
    Fetches (settleDiscussion now wanted user forum discussion inherited existing) slot False
      False := by
  unfold settleDiscussion
  split <;> split
  · exact fetches_askRows _ rfl
  · exact fetches_pure false
  · exact fetches_pure false
  · exact fetches_askRows _ rfl

theorem fetches_changeDiscussion (now : Instant) (wanted : Preference) (user : Id) (forum : Forum)
    (discussion : Id) :
    Fetches (changeDiscussion now wanted user forum discussion) slot
      (forum.subscriptionMode.isOptional = true ∧ slot = .followers forum.id)
      ((Scope.userForum user forum.id).covers slot = true) := by
  rw [changeDiscussion]
  have hrest : ∀ inherited : Bool, Fetches (do
      let existing ← storedPreference user discussion
      let changed ← settleDiscussion now wanted user forum.id discussion inherited existing
      invalidate (.userForum user forum.id)
      pure changed) slot False ((Scope.userForum user forum.id).covers slot = true) :=
    fun inherited => (fetches_storedPreference user discussion).after_quiet fun existing =>
      (fetches_settleDiscussion now wanted user forum.id discussion inherited existing).after_quiet
        fun changed => (fetches_invalidate _).before_pure _
  exact ((fetches_forumLevel user forum).bind hrest False.elim).congr
    (or_iff_left not_false) (or_iff_right not_false)

theorem fetches_enrolled (user : Id) (forums : List Forum) :
    Fetches (enrolled user forums) slot False (∃ forum ∈ forums,
      forum.subscriptionMode = .initial ∧ (Scope.forum forum.id).covers slot = true) := by
  induction forums with
  | nil => exact (fetches_pure 0).congr .rfl (by simp)
  | cons forum rest ih =>
      rw [enrolled]
      split
      · rename_i hmode
        exact ((fetches_changeForum .subscribed user forum.id false).bind
          (fun added => ih.before_pure _) fun _ => id).congr or_self_iff (by simp [hmode])
      · rename_i hmode
        exact ih.congr .rfl (by simp [hmode])

theorem fetches_unenrolled (user : Id) (forums : List Forum) :
    Fetches (unenrolled user forums) slot False
      (∃ forum ∈ forums, (Scope.forum forum.id).covers slot = true) := by
  induction forums with
  | nil => exact (fetches_pure 0).congr .rfl (by simp)
  | cons forum rest ih =>
      rw [unenrolled]
      refine (fetches_askRows _ rfl).after_quiet fun unfollowed =>
        (fetches_askRows _ rfl).after_quiet fun cleared => ?_
      exact ((fetches_invalidate (.forum forum.id)).bind (fun _ => ih.before_pure _)
        fun _ => id).congr or_self_iff (by simp)

theorem fetches_eraseUser (user : Id) :
    Fetches (eraseUser user) slot False ((Scope.user user).covers slot = true) :=
  (fetches_askRows _ rfl).after_quiet fun _ => (fetches_invalidate _).before_pure _

theorem fetches_eraseForum (forum : Id) :
    Fetches (eraseForum forum) slot False ((Scope.forum forum).covers slot = true) :=
  (fetches_askRows _ rfl).after_quiet fun _ => (fetches_invalidate _).before_pure _

end Changes

/-! ### Calls -/

section Calls

variable {call : Call} {slot : Slot}

theorem Call.Needs.not_clears (hneeds : call.Needs slot) : ¬call.Clears slot := by
  cases call with
  | isSubscribed | subscribers | discussionSubscribers | overridesOf =>
      cases slot <;> exact id
  | subscribe user forum discussion | unsubscribe user forum discussion =>
      cases discussion with
      | none => exact hneeds.elim
      | some discussion =>
          obtain ⟨-, rfl⟩ := hneeds
          nofun
  | enrolled | unenrolled | eraseUser | eraseForum | resetCache => exact hneeds.elim

theorem fetches_change (now : Instant) (wanted : Preference) (user : Id) (forum : Forum)
    (discussion : Option Id) (userRequest : Bool) :
    Fetches (change now wanted user forum discussion userRequest) slot
      ((Call.subscribe user forum discussion userRequest).Needs slot)
      ((Call.subscribe user forum discussion userRequest).Clears slot) := by
  cases discussion with
  | none =>
      exact (fetches_changeForum wanted user forum.id userRequest).congr .rfl
        (covers_forum_iff.trans (by cases slot <;> rfl))
  | some discussion =>
      exact (fetches_changeDiscussion now wanted user forum discussion).congr .rfl
        covers_userForum_iff

/-- What a call asks about a slot follows from the call, the slot and whether the cache knows it. -/
theorem fetches_program (now : Instant) (call : Call) (slot : Slot) :
    Fetches (call.program now) slot (call.Needs slot) (call.Clears slot) := by
  cases call with
  | isSubscribed user forum discussion =>
      exact ((fetches_isSubscribed user forum discussion).map _).congr .rfl (by cases slot <;> rfl)
  | subscribe user forum discussion userRequest =>
      exact (fetches_change now .subscribed user forum discussion userRequest).map _
  | unsubscribe user forum discussion userRequest =>
      refine ((fetches_change now .unsubscribed user forum discussion userRequest).map _).congr ?_ ?_
      · cases discussion <;> rfl
      · cases discussion <;> cases slot <;> rfl
  | subscribers forum =>
      exact ((fetches_subscribers forum).map _).congr .rfl (by cases slot <;> rfl)
  | discussionSubscribers forum discussion =>
      exact ((fetches_discussionSubscribers forum discussion).map _).congr .rfl
        (by cases slot <;> rfl)
  | overridesOf user forum =>
      exact ((fetches_overridesOf user forum).map _).congr .rfl (by cases slot <;> rfl)
  | enrolled user forums =>
      refine ((fetches_enrolled user forums).map _).congr .rfl ?_
      simp only [covers_forum_iff]
      cases slot <;> rfl
  | unenrolled user forums =>
      refine ((fetches_unenrolled user forums).map _).congr .rfl ?_
      simp only [covers_forum_iff]
      cases slot <;> rfl
  | eraseUser user => exact ((fetches_eraseUser user).map _).congr .rfl covers_user_iff
  | eraseForum forum => exact ((fetches_eraseForum forum).map _).congr .rfl covers_forum_iff
  | resetCache => exact (fetches_resetCache.map _).congr .rfl (by cases slot <;> rfl)

end Calls

/-! ### Sequences of calls -/

section Sequences

variable {slot : Slot} {call : Call} {asked : List Request} {history : List (Call × List Request)}

theorem not_loaded_nil : ¬Loaded slot [] := by
  rintro ⟨earlier, call, asked, later, hnil, -⟩
  simp at hnil

theorem loaded_cons_iff : Loaded slot ((call, asked) :: history) ↔ Loaded slot history ∨
    slot.request ∈ asked ∧ ∀ entry ∈ history, ¬entry.1.Clears slot := by
  constructor
  · rintro ⟨earlier, found, requests, later, hsplit, hasked, hlater⟩
    cases earlier with
    | nil =>
        cases hsplit
        exact .inr ⟨hasked, hlater⟩
    | cons first earlier =>
        cases hsplit
        exact .inl ⟨earlier, found, requests, later, rfl, hasked, hlater⟩
  · rintro (⟨earlier, found, requests, later, rfl, hasked, hlater⟩ | ⟨hasked, hlater⟩)
    · exact ⟨(call, asked) :: earlier, found, requests, later, rfl, hasked, hlater⟩
    · exact ⟨[], call, asked, history, rfl, hasked, hlater⟩

/-- After calls the cache knows the slots that were loaded, and those that it knew before and that
no call cleared. -/
theorem knows_play_iff (ports : Ports σ) (calls : List (Instant × Call)) (state : σ) (cache : Cache)
    (slot : Slot) (henabled : cache.enabled = true) :
    let played := ports.play calls (state, cache)
    played.2.2.enabled = true ∧ (played.2.2.Knows slot ↔ Loaded slot played.1 ∨
      cache.Knows slot ∧ ∀ entry ∈ played.1, ¬entry.1.Clears slot) := by
  induction calls generalizing state cache with
  | nil => simp [Ports.play, not_loaded_nil, henabled]
  | cons step rest ih =>
      obtain ⟨now, call⟩ := step
      obtain ⟨reply, last, after, hrun, hfetched⟩ :=
        fetches_program now call slot σ ports state cache henabled
      obtain ⟨hkept, hknows⟩ := ih last after hfetched.enabled
      -- A slot that the first call uses is known after it, since no call clears what it uses.
      have hneeds : call.Needs slot → ¬call.Clears slot := Call.Needs.not_clears
      simp only [Ports.play, hrun]
      refine ⟨hkept, ?_⟩
      rw [hknows, loaded_cons_iff, hfetched.asked_iff, hfetched.knows_iff, List.forall_mem_cons]
      tauto

/-- A call reads a slot from storage exactly if it uses the slot and no call made so far has read it
since the last that cleared it, and reads it only once. -/
theorem storage_read_iff_unloaded (ports : Ports σ) (state : σ) (calls : List (Instant × Call))
    (now : Instant) (call : Call) (slot : Slot) :
    let played := ports.play calls (state, { enabled := true })
    let asked := ports.asked (call.program now) played.2
    (slot.request ∈ asked ↔ call.Needs slot ∧ ¬Loaded slot played.1) ∧
      asked.count slot.request ≤ 1 := by
  intro played asked
  obtain ⟨henabled, hknows⟩ := knows_play_iff ports calls state { enabled := true } slot rfl
  obtain ⟨reply, last, after, -, hfetched⟩ :=
    fetches_program now call slot σ ports played.2.1 played.2.2 henabled
  have hempty : ¬Cache.Knows { enabled := true } slot := by cases slot <;> nofun
  have hloaded : played.2.2.Knows slot ↔ Loaded slot played.1 :=
    hknows.trans (or_iff_left fun h => hempty h.1)
  exact ⟨hfetched.asked_iff.trans (and_congr_right fun _ => not_congr hloaded), hfetched.once⟩

example :
    let ports : Ports Rows :=
      ⟨Rows.perform, fun request rows => (answerFromRegister {} request, rows)⟩
    let place : Forum :=
      { id := .ofNat 1, courseId := .ofNat 2, subscriptionMode := .choose }
    let calls : List Call := [.subscribers place, .isSubscribed (.ofNat 7) place none,
      .subscribe (.ofNat 7) place (some (.ofNat 5)) true, .eraseUser (.ofNat 8), .subscribers place]
    (ports.play (calls.map fun call => (default, call)) (.empty, { enabled := true })).1.map
      (fun entry => entry.2.count (Slot.followers place.id).request) = [1, 0, 0, 0, 1] := by
  decide +kernel

end Sequences

end Subscription

end DiscussionBoard
