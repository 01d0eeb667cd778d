import Mathlib.Order.Defs.LinearOrder
import DiscussionBoard.Listing

/-!
# The order of listings

Ranks are totally ordered, and equal ranks are ranks of the same id. A listing holds the visible
discussions by descending rank, those of equal rank in the order given. Where ids differ the ranks
strictly descend, so that the listing does not depend on the order in which the discussions were
given.
-/

namespace DiscussionBoard

/-- A discussion is the first of a list that passes a test. -/
def IsFirst (test : Discussion → Prop) (discussions : List Discussion) (discussion : Discussion) :
    Prop :=
  ∃ before after, discussions = before ++ discussion :: after ∧ test discussion ∧
    ∀ earlier ∈ before, ¬test earlier

theorem find?_eq_some_iff_isFirst {test : Discussion → Bool} {discussions : List Discussion}
    {discussion : Discussion} :
    discussions.find? test = some discussion ↔ IsFirst (test · = true) discussions discussion := by
  rw [List.find?_eq_some_iff_append, IsFirst]
  constructor
  · rintro ⟨hpasses, before, after, hsplit, hbefore⟩
    exact ⟨before, after, hsplit, hpasses, by simpa using hbefore⟩
  · rintro ⟨before, after, hsplit, hpasses, hbefore⟩
    exact ⟨hpasses, before, after, hsplit, by simpa using hbefore⟩

namespace Rank

variable {a b c : Rank}

theorem toNat_pinned_inj : a.pinned.toNat = b.pinned.toNat ↔ a.pinned = b.pinned := by
  cases a.pinned <;> cases b.pinned <;> decide

/-- The order of ranks in numbers. -/
theorem lt_iff : a < b ↔ a.pinned.toNat < b.pinned.toNat ∨ a.pinned.toNat = b.pinned.toNat ∧
    (a.activity.ticks < b.activity.ticks ∨
      a.activity.ticks = b.activity.ticks ∧ a.id.toNat < b.id.toNat) := by
  have hlt : a.pinned < b.pinned ↔ a.pinned.toNat < b.pinned.toNat := by
    cases a.pinned <;> cases b.pinned <;> decide
  rw [← hlt, toNat_pinned_inj, Instant.ticks_inj]
  rfl

protected theorem lt_trans (hab : a < b) (hbc : b < c) : a < c := by
  rw [lt_iff] at *
  omega

protected theorem lt_irrefl (a : Rank) : ¬a < a := by
  rw [lt_iff]
  omega

protected theorem lt_trichotomy (a b : Rank) : a < b ∨ a = b ∨ b < a := by
  have heq : a = b ↔ a.pinned.toNat = b.pinned.toNat ∧ a.activity.ticks = b.activity.ticks ∧
      a.id.toNat = b.id.toNat := by
    rw [toNat_pinned_inj, Instant.ticks_inj, Id.toNat_inj]
    cases a
    cases b
    rw [Rank.mk.injEq]
  rw [lt_iff, heq, lt_iff]
  omega

instance : LE Rank := ⟨fun a b => ¬b < a⟩

instance : LinearOrder Rank where
  le_refl := Rank.lt_irrefl
  le_trans a b c hab hbc hca := by
    rcases Rank.lt_trichotomy a b with h | rfl | h
    · exact hbc (Rank.lt_trans hca h)
    · exact hbc hca
    · exact hab h
  le_antisymm a b hab hba := by
    rcases Rank.lt_trichotomy a b with h | h | h
    · exact (hba h).elim
    · exact h
    · exact (hab h).elim
  le_total a b := by
    by_cases hab : b < a
    · exact .inr fun hba => Rank.lt_irrefl a (Rank.lt_trans hba hab)
    · exact .inl hab
  lt_iff_le_not_ge a b := by
    constructor
    · exact fun hab => ⟨fun hba => Rank.lt_irrefl a (Rank.lt_trans hab hba), not_not_intro hab⟩
    · exact fun h => Decidable.not_not.mp h.2
  toDecidableLE a b := inferInstanceAs (Decidable (¬b < a))
  toDecidableEq := inferInstance
  toDecidableLT := inferInstance

end Rank

namespace Forum

variable {forum : Forum} {viewer : Viewer} {discussions others : List Discussion}
  {a b discussion : Discussion}

theorem id_eq_of_rank_eq (h : forum.rank a = forum.rank b) : a.id = b.id :=
  congrArg Rank.id h

/-- Discussions by rank, highest first, equal ranks in the order given. -/
def ranked (forum : Forum) (discussions : List Discussion) : List Discussion :=
  discussions.mergeSort fun a b => !decide (forum.rank a < forum.rank b)

theorem ranked_perm (forum : Forum) (discussions : List Discussion) :
    (forum.ranked discussions).Perm discussions :=
  List.mergeSort_perm _ _

theorem mem_ranked : discussion ∈ forum.ranked discussions ↔ discussion ∈ discussions :=
  (forum.ranked_perm discussions).mem_iff

theorem not_rank_lt_trans (forum : Forum) (a b c : Discussion)
    (hab : (!decide (forum.rank a < forum.rank b)) = true)
    (hbc : (!decide (forum.rank b < forum.rank c)) = true) :
    (!decide (forum.rank a < forum.rank c)) = true := by
  simp only [Bool.not_eq_true', decide_eq_false_iff_not, not_lt] at *
  exact le_trans hbc hab

theorem not_rank_lt_total (forum : Forum) (a b : Discussion) :
    (!decide (forum.rank a < forum.rank b) || !decide (forum.rank b < forum.rank a)) = true := by
  simpa using le_total (forum.rank b) (forum.rank a)

theorem pairwise_ranked (forum : Forum) (discussions : List Discussion) :
    (forum.ranked discussions).Pairwise fun a b => forum.rank b ≤ forum.rank a := by
  have hsorted : (forum.ranked discussions).Pairwise fun a b =>
      !decide (forum.rank a < forum.rank b) :=
    List.pairwise_mergeSort forum.not_rank_lt_trans forum.not_rank_lt_total discussions
  exact hsorted.imp fun h => by simpa using h

/-- Discussions of equal rank stay in the order given. -/
theorem filter_ranked (forum : Forum) (discussions : List Discussion) (rank : Rank) :
    (forum.ranked discussions).filter (fun discussion => forum.rank discussion = rank) =
      discussions.filter fun discussion => forum.rank discussion = rank := by
  have htied : (discussions.filter fun discussion => forum.rank discussion = rank).Pairwise
      fun a b => !decide (forum.rank a < forum.rank b) := by
    refine List.pairwise_filter.mpr (List.pairwise_of_forall fun a b ha hb => ?_)
    rw [of_decide_eq_true ha, of_decide_eq_true hb]
    simp
  -- A sorted part of a list is a part of the sorted list.
  have hsublist := List.sublist_mergeSort forum.not_rank_lt_trans forum.not_rank_lt_total htied
    List.filter_sublist
  have hpart := hsublist.filter fun discussion => decide (forum.rank discussion = rank)
  rw [List.filter_filter] at hpart
  simp only [Bool.and_self] at hpart
  have hlength := ((forum.ranked_perm discussions).filter
    fun discussion => decide (forum.rank discussion = rank)).length_eq
  exact (hpart.eq_of_length hlength.symm).symm

/-- Descending ranks, with the discussions of each rank in a given order, leave no choice. -/
theorem eq_of_filter_rank (hsorted : discussions.Pairwise fun a b => forum.rank b ≤ forum.rank a)
    (hothers : others.Pairwise fun a b => forum.rank b ≤ forum.rank a)
    (hties : ∀ rank, discussions.filter (fun discussion => forum.rank discussion = rank) =
      others.filter fun discussion => forum.rank discussion = rank) : discussions = others := by
  induction discussions generalizing others with
  | nil =>
      cases others with
      | nil => rfl
      | cons first rest => simpa using hties (forum.rank first)
  | cons first rest ih =>
      cases others with
      | nil => simpa using hties (forum.rank first)
      | cons other others =>
          have hmem : ∀ discussion, discussion ∈ first :: rest ↔ discussion ∈ other :: others := by
            intro discussion
            have hrank := congrArg (discussion ∈ ·) (hties (forum.rank discussion))
            simpa only [List.mem_filter, decide_true, and_true, eq_iff_iff] using hrank
          obtain ⟨hfirst, hrest⟩ := List.pairwise_cons.mp hsorted
          obtain ⟨hother, hlater⟩ := List.pairwise_cons.mp hothers
          have hle : forum.rank first ≤ forum.rank other := by
            rcases List.mem_cons.mp ((hmem first).mp List.mem_cons_self) with h | h
            · rw [h]
            · exact hother first h
          have hge : forum.rank other ≤ forum.rank first := by
            rcases List.mem_cons.mp ((hmem other).mpr List.mem_cons_self) with h | h
            · rw [h]
            · exact hfirst other h
          have hrank : forum.rank first = forum.rank other := le_antisymm hle hge
          have htop := hties (forum.rank first)
          rw [List.filter_cons_of_pos (by simp), List.filter_cons_of_pos (by simp [hrank])] at htop
          obtain rfl := (List.cons.inj htop).1
          refine congrArg (first :: ·) (ih hrest hlater fun rank => ?_)
          have htie := hties rank
          by_cases hfirstRank : forum.rank first = rank
          · simpa [hfirstRank] using htie
          · simpa [hfirstRank] using htie

/-- Leaving some discussions out does not change the order of the others. -/
theorem ranked_filter (test : Discussion → Bool) :
    forum.ranked (discussions.filter test) = (forum.ranked discussions).filter test := by
  refine eq_of_filter_rank (forum.pairwise_ranked _) ((forum.pairwise_ranked _).filter _)
    fun rank => ?_
  let tied (discussion : Discussion) : Bool := decide (forum.rank discussion = rank)
  calc (forum.ranked (discussions.filter test)).filter tied
      = (discussions.filter test).filter tied := forum.filter_ranked _ rank
    _ = (discussions.filter tied).filter test := by
        simp only [List.filter_filter, Bool.and_comm]
    _ = ((forum.ranked discussions).filter tied).filter test := by
        rw [← forum.filter_ranked discussions rank]
    _ = ((forum.ranked discussions).filter test).filter tied := by
        simp only [List.filter_filter, Bool.and_comm]

/-- Where ids differ, no two ranks are equal. -/
theorem pairwise_ranked_of_nodup (hids : (discussions.map (·.id)).Nodup) :
    (forum.ranked discussions).Pairwise fun a b => forum.rank b < forum.rank a := by
  have hdiffer : (forum.ranked discussions).Pairwise fun a b => a.id ≠ b.id :=
    List.pairwise_map.mp (((forum.ranked_perm discussions).map Discussion.id).nodup_iff.mpr hids)
  refine ((forum.pairwise_ranked discussions).and hdiffer).imp fun h => ?_
  exact lt_of_le_of_ne h.1 fun hrank => h.2 (id_eq_of_rank_eq hrank).symm

/-- Where no two ranks are equal, a descending list is known by its members. -/
theorem eq_of_mem_iff (hdiscussions : discussions.Pairwise fun a b => forum.rank b < forum.rank a)
    (hothers : others.Pairwise fun a b => forum.rank b < forum.rank a)
    (hmem : ∀ discussion, discussion ∈ discussions ↔ discussion ∈ others) :
    discussions = others := by
  have hnodup : ∀ {discussions : List Discussion},
      discussions.Pairwise (fun a b => forum.rank b < forum.rank a) → discussions.Nodup := by
    intro discussions hsorted
    refine hsorted.imp ?_
    rintro a _ hlt rfl
    exact lt_irrefl _ hlt
  have hperm : discussions.Perm others :=
    (List.perm_ext_iff_of_nodup (hnodup hdiscussions) (hnodup hothers)).mpr
      fun discussion => hmem discussion
  exact hperm.eq_of_pairwise (fun a b _ _ hab hba => absurd hab (lt_asymm hba)) hdiscussions
    hothers

theorem ranked_eq_of_perm (hids : (discussions.map (·.id)).Nodup)
    (hperm : discussions.Perm others) : forum.ranked discussions = forum.ranked others := by
  have hothers : (others.map (·.id)).Nodup := (hperm.map (·.id)).nodup_iff.mp hids
  refine eq_of_mem_iff (pairwise_ranked_of_nodup hids) (pairwise_ranked_of_nodup hothers)
    fun discussion => ?_
  rw [mem_ranked, mem_ranked, hperm.mem_iff]

theorem foreign?_eq_none_iff :
    forum.foreign? discussions = none ↔ ∀ discussion ∈ discussions, discussion.forumId = forum.id := by
  simp [foreign?]

/-- The fault names the first discussion that another forum owns. -/
theorem foreign?_of_isFirst (hfirst : IsFirst (·.forumId ≠ forum.id) discussions discussion) :
    forum.foreign? discussions =
      some (.foreignDiscussion discussion.id discussion.forumId forum.id) := by
  have hfind : discussions.find? (fun discussion => discussion.forumId ≠ forum.id) =
      some discussion := find?_eq_some_iff_isFirst.mpr (by simpa using hfirst)
  rw [foreign?, hfind, Option.map_some]

theorem listing_of_owned (howned : ∀ discussion ∈ discussions, discussion.forumId = forum.id) :
    forum.listing viewer discussions =
      .ok (forum.ranked (discussions.filter (forum.shows viewer))) := by
  rw [listing, foreign?_eq_none_iff.mpr howned]
  rfl

theorem exists_foreign?_of_not_owned
    (hforeign : ¬∀ discussion ∈ discussions, discussion.forumId = forum.id) :
    ∃ fault, forum.foreign? discussions = some fault :=
  Option.ne_none_iff_exists'.mp (mt foreign?_eq_none_iff.mp hforeign)

theorem listing_eq_error_iff :
    (∃ fault, forum.listing viewer discussions = .error fault) ↔
      ∃ discussion ∈ discussions, discussion.forumId ≠ forum.id := by
  by_cases howned : ∀ discussion ∈ discussions, discussion.forumId = forum.id
  · rw [listing_of_owned howned]
    exact iff_of_false nofun (by simpa using howned)
  · obtain ⟨fault, hforeign⟩ := exists_foreign?_of_not_owned howned
    rw [listing, hforeign]
    exact iff_of_true ⟨fault, rfl⟩ (by simpa using howned)

/-- A listing is a fault if another forum owns one of the discussions, visible or not, and names the
first of these. Else it sorts the visible discussions by descending rank and is stable. -/
theorem listing_is_stable_sort (forum : Forum) (viewer : Viewer) (discussions : List Discussion) :
    ((∃ fault, forum.listing viewer discussions = .error fault) ↔
      ∃ discussion ∈ discussions, discussion.forumId ≠ forum.id) ∧
    (∀ discussion, IsFirst (·.forumId ≠ forum.id) discussions discussion →
      forum.listing viewer discussions =
        .error (.foreignDiscussion discussion.id discussion.forumId forum.id)) ∧
    ((∀ discussion ∈ discussions, discussion.forumId = forum.id) →
      ∃ listed, forum.listing viewer discussions = .ok listed ∧
        listed.Perm (discussions.filter (forum.shows viewer)) ∧
        listed.Pairwise (fun a b => forum.rank b ≤ forum.rank a) ∧
        (∀ rank, listed.filter (fun discussion => forum.rank discussion = rank) =
          (discussions.filter (forum.shows viewer)).filter
            fun discussion => forum.rank discussion = rank) ∧
        ((discussions.map (·.id)).Nodup →
          listed.Pairwise (fun a b => forum.rank b < forum.rank a) ∧
          ∀ others, others.Perm discussions → forum.listing viewer others = .ok listed)) := by
  refine ⟨listing_eq_error_iff, fun discussion hfirst => ?_, fun howned => ?_⟩
  · rw [listing, foreign?_of_isFirst hfirst]
  · refine ⟨_, listing_of_owned howned, forum.ranked_perm _, forum.pairwise_ranked _,
      forum.filter_ranked _, fun hids => ?_⟩
    have hvisible : ((discussions.filter (forum.shows viewer)).map (·.id)).Nodup :=
      (List.filter_sublist.map _).nodup hids
    refine ⟨pairwise_ranked_of_nodup hvisible, fun others hperm => ?_⟩
    have hownedOthers : ∀ discussion ∈ others, discussion.forumId = forum.id :=
      fun discussion hmem => howned discussion (hperm.mem_iff.mp hmem)
    rw [listing_of_owned hownedOthers, ranked_eq_of_perm hvisible (hperm.symm.filter _)]

end Forum

end DiscussionBoard
