import Mathlib.Data.List.Induction
import DiscussionBoard.Proofs.Subscription.Slot

/-!
# What a history leaves in the cache

A cache that starts empty is told to keep snapshots, under any tickets, and to clear. What it holds
of a slot follows from this history alone: the latest snapshot that was kept under a ticket of its
moment, unless a later clearing covers the slot.
-/

namespace DiscussionBoard.Subscription

namespace CacheRequest

/-- Keeps a snapshot of a slot under a ticket. -/
def keep : (slot : Slot) → slot.Value → UInt64 → CacheRequest
  | .followers forum, users, ticket => .keepFollowers forum users ticket
  | .choices user forum, choices, ticket => .keepOverrides user forum choices ticket

/-- The slots whose snapshots a request drops. -/
inductive Drops : CacheRequest → Slot → Prop
  | reset (slot : Slot) : Drops .reset slot
  | forumFollowers (forum : Id) : Drops (.invalidate (.forum forum)) (.followers forum)
  | forumChoices (user forum : Id) : Drops (.invalidate (.forum forum)) (.choices user forum)
  | userForum (user forum : Id) : Drops (.invalidate (.userForum user forum)) (.choices user forum)
  | userChoices (user forum : Id) : Drops (.invalidate (.user user)) (.choices user forum)
  | allFollowers (user forum : Id) : Drops (.invalidate (.user user)) (.followers forum)

end CacheRequest

/-- How often a history clears, whatever is covered. -/
def clearingsIn (history : List CacheRequest) : Nat :=
  history.countP fun request => (Request.cache request).isClearing

/-- A new cache after a history. -/
def Cache.replay (enabled : Bool) (history : List CacheRequest) : Cache :=
  history.foldl (fun cache request => (Cache.perform request cache).2) { enabled }

/-- Whether a snapshot is kept under a ticket after a history. -/
def Counts (enabled : Bool) (history : List CacheRequest) (ticket : UInt64) : Prop :=
  enabled = true ∧ ticket.toNat = clearingsIn history % UInt64.size

/-- Whether a request made after a history neither drops a slot nor keeps a snapshot of it. -/
def LeavesAlone (enabled : Bool) (history : List CacheRequest) (request : CacheRequest)
    (slot : Slot) : Prop :=
  ¬request.Drops slot ∧
    ∀ value ticket, request = .keep slot value ticket → ¬Counts enabled history ticket

/-- Whether a history keeps a snapshot of a slot that all later requests leave alone. -/
def Holds (enabled : Bool) (history : List CacheRequest) (slot : Slot) (value : slot.Value) : Prop :=
  ∃ before ticket after, history = before ++ .keep slot value ticket :: after ∧
    Counts enabled before ticket ∧ ∀ middle request rest, after = middle ++ request :: rest →
      LeavesAlone enabled (before ++ .keep slot value ticket :: middle) request slot

variable {enabled : Bool} {history : List CacheRequest} {request : CacheRequest} {cache : Cache}
  {slot other : Slot} {value : slot.Value} {ticket : UInt64}

/-- One more request keeps the snapshot that is held, or leaves alone what was held before. -/
theorem holds_concat_iff : Holds enabled (history ++ [request]) slot value ↔
    (∃ ticket, request = .keep slot value ticket ∧ Counts enabled history ticket) ∨
      Holds enabled history slot value ∧ LeavesAlone enabled history request slot := by
  constructor
  · rintro ⟨before, ticket, after, hsplit, hcounts, hlater⟩
    rcases List.eq_nil_or_concat after with rfl | ⟨front, last, rfl⟩
    · obtain ⟨rfl, hrequest⟩ := List.append_inj' hsplit rfl
      exact .inl ⟨ticket, (List.cons.inj hrequest).1, hcounts⟩
    · rw [List.concat_eq_append] at hsplit hlater
      rw [← List.cons_append, ← List.append_assoc] at hsplit
      obtain ⟨rfl, hrequest⟩ := List.append_inj' hsplit rfl
      obtain rfl : request = last := (List.cons.inj hrequest).1
      refine .inr ⟨⟨before, ticket, front, rfl, hcounts, fun middle found rest hfront => ?_⟩,
        hlater front request [] rfl⟩
      refine hlater middle found (rest ++ [request]) ?_
      rw [hfront, List.append_assoc, List.cons_append]
  · rintro (⟨ticket, rfl, hcounts⟩ | ⟨⟨before, ticket, after, rfl, hcounts, hlater⟩, hlast⟩)
    · exact ⟨history, ticket, [], rfl, hcounts, fun middle request rest hnil => by simp at hnil⟩
    · refine ⟨before, ticket, after ++ [request], by simp, hcounts,
        fun middle found rest hsplit => ?_⟩
      rcases List.eq_nil_or_concat rest with rfl | ⟨front, last, rfl⟩
      · obtain ⟨rfl, hrequest⟩ := List.append_inj' hsplit rfl
        obtain rfl := (List.cons.inj hrequest).1
        exact hlast
      · rw [List.concat_eq_append, ← List.cons_append, ← List.append_assoc] at hsplit
        obtain ⟨rfl, -⟩ := List.append_inj' hsplit rfl
        exact hlater middle found front rfl

/-! ### One request to the cache -/

theorem keep_inj {later : slot.Value} {ticket' : UInt64}
    (h : CacheRequest.keep slot value ticket = .keep slot later ticket') : value = later := by
  cases slot with
  | followers forum => exact (CacheRequest.keepFollowers.inj h).2.1
  | choices user forum => exact (CacheRequest.keepOverrides.inj h).2.2.1

/-- A request keeps some snapshot, or drops those of the slots that it clears. -/
theorem keeps_or_clears (request : CacheRequest) :
    (∃ slot value ticket, request = .keep slot value ticket) ∨ ∀ cache slot,
      (Cache.perform request cache).2.at? slot =
        if (Request.cache request).clears slot then none else cache.at? slot := by
  cases request with
  | isEnabled | generation | followersOf | overridesOf => exact .inr fun _ _ => rfl
  | keepFollowers forum users ticket => exact .inl ⟨.followers forum, users, ticket, rfl⟩
  | keepOverrides user forum choices ticket => exact .inl ⟨.choices user forum, choices, ticket, rfl⟩
  | reset => exact .inr fun _ _ => Cache.at?_reset
  | invalidate scope =>
      refine .inr fun cache slot => Option.ext fun value => ?_
      rw [Cache.perform, Cache.at?_invalidate, Request.clears]
      cases scope.covers slot <;> simp

theorem drops_iff : request.Drops slot ↔ (Request.cache request).clears slot = true := by
  constructor
  · rintro (_ | _ | _ | _ | _ | _) <;>
      simp [Request.clears, Scope.covers, Scope.coversFollowers, Scope.coversOverrides]
  · intro h
    cases request with
    | isEnabled | generation | followersOf | overridesOf | keepFollowers | keepOverrides => cases h
    | reset => exact .reset slot
    | invalidate scope =>
        cases scope <;> cases slot <;>
          simp only [Request.clears, Scope.covers, Scope.coversFollowers, Scope.coversOverrides,
            decide_eq_true_eq, Prod.mk.injEq, Bool.false_eq_true] at h
        · subst h
          exact .forumFollowers _
        · subst h
          exact .forumChoices _ _
        · obtain ⟨rfl, rfl⟩ := h
          exact .userForum _ _
        · exact .allFollowers _ _
        · subst h
          exact .userChoices _ _

theorem not_drops_keep : ¬(CacheRequest.keep slot value ticket).Drops other := by
  cases slot <;> nofun

theorem perform_keep_of_refused (hrefused : ¬cache.accepts ticket = true) :
    (Cache.perform (.keep slot value ticket) cache).2 = cache := by
  cases slot with
  | followers forum => exact if_neg hrefused
  | choices user forum => exact if_neg hrefused

theorem at?_keep_self (haccepts : cache.accepts ticket = true) :
    (Cache.perform (.keep slot value ticket) cache).2.at? slot = some value := by
  cases slot with
  | followers forum => exact (cache.followersOf_keepFollowers ..).trans (if_pos ⟨haccepts, rfl⟩)
  | choices user forum => exact (cache.overridesOf_keepOverrides ..).trans (if_pos ⟨haccepts, rfl⟩)

theorem at?_keep_of_ne (hother : other ≠ slot) :
    (Cache.perform (.keep slot value ticket) cache).2.at? other = cache.at? other := by
  cases slot with
  | followers forum =>
      cases other with
      | followers key =>
          refine (cache.followersOf_keepFollowers ..).trans (if_neg ?_)
          rintro ⟨-, rfl⟩
          exact hother rfl
      | choices keyUser keyForum =>
          simp only [CacheRequest.keep, Cache.perform, Cache.keepFollowers]
          split <;> rfl
  | choices user forum =>
      cases other with
      | followers key =>
          simp only [CacheRequest.keep, Cache.perform, Cache.keepOverrides]
          split <;> rfl
      | choices keyUser keyForum =>
          refine (cache.overridesOf_keepOverrides ..).trans (if_neg ?_)
          rintro ⟨-, hkey⟩
          cases hkey
          exact hother rfl

/-! ### A whole history -/

theorem clearingsIn_append (history later : List CacheRequest) :
    clearingsIn (history ++ later) = clearingsIn history + clearingsIn later :=
  List.countP_append

theorem replay_concat (enabled : Bool) (history : List CacheRequest) (request : CacheRequest) :
    Cache.replay enabled (history ++ [request]) =
      (Cache.perform request (Cache.replay enabled history)).2 :=
  List.foldl_append

theorem enabled_replay (enabled : Bool) (history : List CacheRequest) :
    (Cache.replay enabled history).enabled = enabled := by
  induction history using List.reverseRecOn with
  | nil => rfl
  | append_singleton history request ih => rw [replay_concat, Cache.enabled_perform, ih]

theorem generation_replay (enabled : Bool) (history : List CacheRequest) :
    (Cache.replay enabled history).generation.toNat = clearingsIn history % UInt64.size := by
  induction history using List.reverseRecOn with
  | nil => rfl
  | append_singleton history request ih =>
      rw [replay_concat, Cache.generation_perform, clearingsIn_append]
      cases hclearing : (Request.cache request).isClearing with
      | false => simpa [clearingsIn, hclearing] using ih
      | true =>
          calc ((Cache.replay enabled history).generation + 1).toNat
              = ((Cache.replay enabled history).generation.toNat + 1) % UInt64.size := UInt64.toNat_add ..
            _ = (clearingsIn history + 1) % UInt64.size := by rw [ih, Nat.mod_add_mod]
            _ = (clearingsIn history + clearingsIn [request]) % UInt64.size := by
                simp [clearingsIn, hclearing]

theorem accepts_replay_iff :
    (Cache.replay enabled history).accepts ticket = true ↔ Counts enabled history ticket := by
  rw [Cache.accepts, Bool.and_eq_true, decide_eq_true_eq, enabled_replay, Counts,
    ← generation_replay enabled, ← UInt64.toNat_inj, eq_comm (b := ticket.toNat)]

theorem at?_of_leavesAlone (halone : LeavesAlone enabled history request slot) :
    (Cache.perform request (Cache.replay enabled history)).2.at? slot =
      (Cache.replay enabled history).at? slot := by
  obtain ⟨hdrops, hkeeps⟩ := halone
  obtain ⟨kept, value, ticket, rfl⟩ | hclears := keeps_or_clears request
  · by_cases hslot : slot = kept
    · subst hslot
      rw [perform_keep_of_refused (mt accepts_replay_iff.mp (hkeeps value ticket rfl))]
    · exact at?_keep_of_ne hslot
  · rw [hclears, if_neg (mt drops_iff.mpr hdrops)]

theorem at?_of_drops (hdrops : request.Drops slot) (cache : Cache) :
    (Cache.perform request cache).2.at? slot = none := by
  obtain ⟨kept, value, ticket, rfl⟩ | hclears := keeps_or_clears request
  · exact (not_drops_keep hdrops).elim
  · rw [hclears, if_pos (drops_iff.mp hdrops)]

theorem at?_replay_iff :
    (Cache.replay enabled history).at? slot = some value ↔ Holds enabled history slot value := by
  induction history using List.reverseRecOn with
  | nil =>
      refine iff_of_false ?_ ?_
      · cases slot <;> nofun
      · rintro ⟨before, ticket, after, hnil, -⟩
        simp at hnil
  | append_singleton history request ih =>
      rw [replay_concat, holds_concat_iff, ← ih]
      by_cases hdrops : request.Drops slot
      · rw [at?_of_drops hdrops]
        refine iff_of_false nofun ?_
        rintro (⟨ticket, rfl, -⟩ | ⟨-, halone⟩)
        · exact not_drops_keep hdrops
        · exact halone.1 hdrops
      · by_cases hkeeps : ∃ later ticket, request = .keep slot later ticket ∧
            Counts enabled history ticket
        · obtain ⟨later, ticket, rfl, hcounts⟩ := hkeeps
          rw [at?_keep_self (accepts_replay_iff.mpr hcounts), Option.some.injEq]
          constructor
          · rintro rfl
            exact .inl ⟨ticket, rfl, hcounts⟩
          · rintro (⟨ticket', hsame, -⟩ | ⟨-, halone⟩)
            · exact keep_inj hsame
            · exact (halone.2 later ticket rfl hcounts).elim
        · have halone : LeavesAlone enabled history request slot :=
            ⟨hdrops, fun later ticket hrequest hcounts =>
              hkeeps ⟨later, ticket, hrequest, hcounts⟩⟩
          rw [at?_of_leavesAlone halone]
          refine ⟨fun hbefore => .inr ⟨hbefore, halone⟩, ?_⟩
          rintro (⟨ticket, hrequest, hcounts⟩ | ⟨hbefore, -⟩)
          · exact (halone.2 value ticket hrequest hcounts).elim
          · exact hbefore

/-- A ticket counts no more after some clearings, until they have gone round all generations. -/
theorem not_counts_of_clearings {later : List CacheRequest}
    (hticket : ticket.toNat = clearingsIn history % UInt64.size) (hsome : 0 < clearingsIn later)
    (hfew : clearingsIn later < UInt64.size) : ¬Counts enabled (history ++ later) ticket := by
  rintro ⟨-, hlater⟩
  rw [clearingsIn_append] at hlater
  simp only [UInt64.size] at hticket hfew hlater
  omega

/-- What a cache answers is what its history holds, under a generation that counts the clearings
modulo `2 ^ 64`. A snapshot is kept exactly under the present ticket while the cache is enabled. A
clearing makes the tickets of all slots worthless, and drops no snapshot that it does not cover. -/
theorem cache_holds_what_history_allows (enabled : Bool) (history : List CacheRequest) :
    let cache := Cache.replay enabled history
    cache.generation.toNat = clearingsIn history % UInt64.size ∧
    (∀ slot value ticket, enabled = true ∧ ticket = cache.generation →
      (Cache.perform (.keep slot value ticket) cache).2.at? slot = some value ∧
      ∀ other, other ≠ slot →
        (Cache.perform (.keep slot value ticket) cache).2.at? other = cache.at? other) ∧
    (∀ slot value ticket, ¬(enabled = true ∧ ticket = cache.generation) →
      (Cache.perform (.keep slot value ticket) cache).2 = cache) ∧
    (∀ slot value, cache.at? slot = some value ↔ Holds enabled history slot value) ∧
    (∀ later, 0 < clearingsIn later → clearingsIn later < UInt64.size → ∀ slot value,
      let after := Cache.replay enabled (history ++ later)
      (Cache.perform (.keep slot value cache.generation) after).2 = after) ∧
    ∀ scope slot, ¬(CacheRequest.invalidate scope).Drops slot →
      (cache.invalidate scope).at? slot = cache.at? slot := by
  intro cache
  have haccepts : ∀ ticket, cache.accepts ticket = true ↔
      enabled = true ∧ ticket = cache.generation := by
    intro ticket
    rw [Cache.accepts, Bool.and_eq_true, decide_eq_true_eq, enabled_replay, eq_comm (a := ticket)]
  refine ⟨generation_replay enabled history, fun slot value ticket hticket => ?_,
    fun slot value ticket hticket => ?_, fun slot value => at?_replay_iff, ?_, ?_⟩
  · exact ⟨at?_keep_self ((haccepts ticket).mpr hticket), fun other hother => at?_keep_of_ne hother⟩
  · exact perform_keep_of_refused (mt (haccepts ticket).mp hticket)
  · intro later hsome hfew slot value
    have hworthless : ¬Counts enabled (history ++ later) cache.generation :=
      not_counts_of_clearings (generation_replay enabled history) hsome hfew
    exact perform_keep_of_refused (mt accepts_replay_iff.mp hworthless)
  · intro scope slot hdrops
    obtain ⟨kept, value, ticket, hkeep⟩ | hclears := keeps_or_clears (.invalidate scope)
    · cases kept <;> cases hkeep
    · exact (hclears cache slot).trans (if_neg (mt drops_iff.mpr hdrops))

end DiscussionBoard.Subscription
