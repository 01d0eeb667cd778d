import Mathlib.Data.List.MinMax
import DiscussionBoard.Proofs.Listing.Order

/-!
# Neighbours in a listing

The single pass over the candidates finds the first of those with the highest rank below the
target's and the first of those with the lowest rank above it. Where ids differ these stand around
the place in the listing where the target's rank falls, and for a listed target that is its own place.
-/

namespace DiscussionBoard.Forum

variable {forum : Forum} {viewer : Viewer} {discussions listed before after : List Discussion}
  {discussion target : Discussion}

/-- The two neighbours are searched for independently of each other. -/
theorem foldl_place (rank : Rank) (found : Neighbours) :
    discussions.foldl (forum.place rank) found =
      ⟨(discussions.filter fun candidate => forum.rank candidate < rank).foldl
          (List.argAux fun a b => forum.rank b < forum.rank a) found.prev,
        (discussions.filter fun candidate => rank < forum.rank candidate).foldl
          (List.argAux fun a b => forum.rank a < forum.rank b) found.next⟩ := by
  induction discussions generalizing found with
  | nil => rfl
  | cons candidate rest ih =>
      rw [List.foldl_cons, ih, place]
      by_cases hbelow : forum.rank candidate < rank
      · have habove : ¬rank < forum.rank candidate := lt_asymm hbelow
        cases hprev : found.prev with
        | none => simp [hbelow, habove, List.argAux]
        | some prev =>
            by_cases hcloser : forum.rank prev < forum.rank candidate <;>
              simp [hbelow, habove, List.argAux, hprev, hcloser]
      · by_cases habove : rank < forum.rank candidate
        · cases hnext : found.next with
          | none => simp [hbelow, habove, List.argAux]
          | some next =>
              by_cases hcloser : forum.rank candidate < forum.rank next <;>
                simp [hbelow, habove, List.argAux, hnext, hcloser]
        · simp [hbelow, habove]

/-- Among the visible discussions with another id than the target. -/
theorem neighbours_of_owned (htarget : target.forumId = forum.id)
    (howned : ∀ discussion ∈ discussions, discussion.forumId = forum.id) :
    let candidates := (discussions.filter (forum.shows viewer)).filter fun candidate =>
      candidate.id ≠ target.id
    forum.neighbours viewer discussions target = .ok
      ⟨(candidates.filter fun candidate =>
          forum.rank candidate < forum.rank target).argmax forum.rank,
        (candidates.filter fun candidate =>
          forum.rank target < forum.rank candidate).argmin forum.rank⟩ := by
  have hall : ∀ discussion ∈ target :: discussions, discussion.forumId = forum.id := by
    simpa [htarget] using howned
  rw [neighbours, foreign?_eq_none_iff.mpr hall, List.filter_filter]
  dsimp only
  rw [foldl_place]
  rfl

theorem neighbours_of_foreign (htarget : target.forumId ≠ forum.id) :
    forum.neighbours viewer discussions target =
      .error (.foreignDiscussion target.id target.forumId forum.id) := by
  simp [neighbours, foreign?, htarget]

theorem neighbours_eq_error_iff :
    (∃ fault, forum.neighbours viewer discussions target = .error fault) ↔
      ∃ discussion ∈ target :: discussions, discussion.forumId ≠ forum.id := by
  by_cases howned : ∀ discussion ∈ target :: discussions, discussion.forumId = forum.id
  · obtain ⟨htarget, hrest⟩ := List.forall_mem_cons.mp howned
    rw [neighbours_of_owned htarget hrest]
    exact iff_of_false nofun (by simpa using howned)
  · obtain ⟨fault, hforeign⟩ := exists_foreign?_of_not_owned howned
    rw [neighbours, hforeign]
    exact iff_of_true ⟨fault, rfl⟩ (by simpa only [not_forall, exists_prop] using howned)

theorem neighbours_of_isFirst (htarget : target.forumId = forum.id)
    (hfirst : IsFirst (·.forumId ≠ forum.id) discussions discussion) :
    forum.neighbours viewer discussions target =
      .error (.foreignDiscussion discussion.id discussion.forumId forum.id) := by
  obtain ⟨before, after, hsplit, hforeign, hbefore⟩ := hfirst
  have hlater : IsFirst (·.forumId ≠ forum.id) (target :: discussions) discussion :=
    ⟨target :: before, after, congrArg (target :: ·) hsplit, hforeign,
      List.forall_mem_cons.mpr ⟨not_not_intro htarget, hbefore⟩⟩
  rw [neighbours, foreign?_of_isFirst hlater]

/-! ### The first of the greatest -/

/-- The first of the discussions that none of a list outranks. -/
def IsFirstGreatest (forum : Forum) (discussions : List Discussion) : Discussion → Prop :=
  IsFirst (fun discussion => ∀ other ∈ discussions, forum.rank other ≤ forum.rank discussion)
    discussions

/-- The first of the discussions that outrank none of a list. -/
def IsFirstLeast (forum : Forum) (discussions : List Discussion) : Discussion → Prop :=
  IsFirst (fun discussion => ∀ other ∈ discussions, forum.rank discussion ≤ forum.rank other)
    discussions

theorem argmax_eq_some_of_isFirst {β : Type} [LinearOrder β] {f : Discussion → β}
    (hfirst : IsFirst (fun discussion => ∀ other ∈ discussions, f other ≤ f discussion) discussions
      discussion) : discussions.argmax f = some discussion := by
  obtain ⟨before, after, rfl, hgreatest, hbefore⟩ := hfirst
  have hfresh : discussion ∉ before := fun h => hbefore discussion h hgreatest
  refine List.argmax_eq_some_iff.mpr ⟨by simp, hgreatest, fun other _ hle => ?_⟩
  have hother : other ∉ before := fun h =>
    hbefore other h fun third hthird => le_trans (hgreatest third hthird) hle
  rw [List.idxOf_append_of_notMem hfresh, List.idxOf_append_of_notMem hother, List.idxOf_cons_self]
  omega

theorem argmax_eq_some_iff_isFirst {β : Type} [LinearOrder β] {f : Discussion → β} :
    discussions.argmax f = some discussion ↔
      IsFirst (fun discussion => ∀ other ∈ discussions, f other ≤ f discussion) discussions
        discussion := by
  refine ⟨fun hmax => ?_, argmax_eq_some_of_isFirst⟩
  obtain ⟨hmem, hgreatest, -⟩ := List.argmax_eq_some_iff.mp hmax
  -- Some discussion is the first that passes, and the search finds no other.
  have hfind : (discussions.find? fun discussion =>
      decide (∀ other ∈ discussions, f other ≤ f discussion)).isSome = true :=
    List.find?_isSome.mpr ⟨discussion, hmem, decide_eq_true hgreatest⟩
  obtain ⟨first, hfind⟩ := Option.isSome_iff_exists.mp hfind
  have hfirst := find?_eq_some_iff_isFirst.mp hfind
  simp only [decide_eq_true_eq] at hfirst
  obtain rfl := Option.some.inj (hmax.symm.trans (argmax_eq_some_of_isFirst hfirst))
  exact hfirst

/-- The neighbours of a rank among candidates: the first of the next lower and of the next higher
rank. -/
structure FindsClosest (forum : Forum) (candidates : List Discussion) (rank : Rank)
    (found : Neighbours) : Prop where
  apart : ∀ candidate ∈ candidates, forum.rank candidate ≠ rank
  prev : ∀ prev, found.prev = some prev ↔
    forum.IsFirstGreatest (candidates.filter fun candidate => forum.rank candidate < rank) prev
  next : ∀ next, found.next = some next ↔
    forum.IsFirstLeast (candidates.filter fun candidate => rank < forum.rank candidate) next
  prev_eq_none : found.prev = none ↔ ∀ candidate ∈ candidates, ¬forum.rank candidate < rank
  next_eq_none : found.next = none ↔ ∀ candidate ∈ candidates, ¬rank < forum.rank candidate

theorem findsClosest_argmax {candidates : List Discussion} {rank : Rank}
    (hapart : ∀ candidate ∈ candidates, forum.rank candidate ≠ rank) :
    forum.FindsClosest candidates rank
      ⟨(candidates.filter fun candidate => forum.rank candidate < rank).argmax forum.rank,
        (candidates.filter fun candidate => rank < forum.rank candidate).argmin forum.rank⟩ where
  apart := hapart
  prev _ := argmax_eq_some_iff_isFirst
  next _ := argmax_eq_some_iff_isFirst (β := Rankᵒᵈ)
  prev_eq_none := by simp [List.argmax_eq_none, List.filter_eq_nil_iff]
  next_eq_none := by simp [List.argmin_eq_none, List.filter_eq_nil_iff]

/-- Only discussions with the same id tie in rank. -/
theorem rank_ne_of_mem_others
    (hmem : discussion ∈ discussions.filter fun other => other.id ≠ target.id) :
    forum.rank discussion ≠ forum.rank target :=
  fun hrank => of_decide_eq_true (List.mem_filter.mp hmem).2 (id_eq_of_rank_eq hrank)

theorem argmax_eq_some_of_greatest {β : Type} [LinearOrder β] {f : Discussion → β}
    (hmem : discussion ∈ discussions)
    (hgreatest : ∀ other ∈ discussions, other = discussion ∨ f other < f discussion) :
    discussions.argmax f = some discussion := by
  refine List.argmax_eq_some_iff.mpr ⟨hmem, fun other hother => ?_, fun other hother hle => ?_⟩
  · rcases hgreatest other hother with rfl | hlt
    · exact le_refl _
    · exact le_of_lt hlt
  · rcases hgreatest other hother with rfl | hlt
    · exact Nat.le_refl _
    · exact (not_le_of_gt hlt hle).elim

theorem argmin_eq_some_of_least {β : Type} [LinearOrder β] {f : Discussion → β}
    (hmem : discussion ∈ discussions)
    (hleast : ∀ other ∈ discussions, other = discussion ∨ f discussion < f other) :
    discussions.argmin f = some discussion :=
  argmax_eq_some_of_greatest (β := βᵒᵈ) hmem hleast

/-- Of descending ranks the first is the greatest. -/
theorem argmax_eq_head? (hperm : discussions.Perm listed)
    (hlisted : listed.Pairwise fun a b => forum.rank b < forum.rank a) :
    discussions.argmax forum.rank = listed.head? := by
  cases listed with
  | nil => rw [hperm.eq_nil, List.argmax_nil, List.head?_nil]
  | cons first rest =>
      refine argmax_eq_some_of_greatest (hperm.mem_iff.mpr List.mem_cons_self) fun other hother => ?_
      exact (List.mem_cons.mp (hperm.mem_iff.mp hother)).imp_right (List.rel_of_pairwise_cons hlisted)

theorem argmin_eq_getLast? (hperm : discussions.Perm listed)
    (hlisted : listed.Pairwise fun a b => forum.rank b < forum.rank a) :
    discussions.argmin forum.rank = listed.getLast? := by
  rcases List.eq_nil_or_concat listed with rfl | ⟨front, last, rfl⟩
  · rw [hperm.eq_nil, List.argmin_nil, List.getLast?_nil]
  · rw [List.concat_eq_append] at *
    rw [List.getLast?_concat]
    refine argmin_eq_some_of_least (hperm.mem_iff.mpr (by simp)) fun other hother => ?_
    have hother : other ∈ front ∨ other = last := by simpa using hperm.mem_iff.mp hother
    exact hother.symm.imp_right fun hfront =>
      (List.pairwise_append.mp hlisted).2.2 other hfront last List.mem_cons_self

/-! ### Around a listed discussion -/

theorem filter_others (hids : ((before ++ target :: after).map (·.id)).Nodup) :
    ((before ++ target :: after).filter fun other => other.id ≠ target.id) = before ++ after := by
  obtain ⟨-, hrest, hcross⟩ := List.pairwise_append.mp (List.pairwise_map.mp hids)
  rw [List.filter_append, List.filter_cons_of_neg (by simp), List.filter_eq_self.mpr,
    List.filter_eq_self.mpr]
  · intro other hother
    simpa using (List.rel_of_pairwise_cons hrest hother).symm
  · intro other hother
    simpa using hcross other hother target List.mem_cons_self

section Sorted

variable (hsorted : (before ++ target :: after).Pairwise fun a b => forum.rank b < forum.rank a)
include hsorted

theorem filter_below :
    ((before ++ after).filter fun other => forum.rank other < forum.rank target) = after := by
  obtain ⟨-, hrest, hcross⟩ := List.pairwise_append.mp hsorted
  rw [List.filter_append, List.filter_eq_nil_iff.mpr, List.filter_eq_self.mpr, List.nil_append]
  · intro other hother
    simpa using List.rel_of_pairwise_cons hrest hother
  · intro other hother
    simpa using le_of_lt (hcross other hother target List.mem_cons_self)

theorem filter_above :
    ((before ++ after).filter fun other => forum.rank target < forum.rank other) = before := by
  obtain ⟨-, hrest, hcross⟩ := List.pairwise_append.mp hsorted
  rw [List.filter_append, List.filter_eq_self.mpr, List.filter_eq_nil_iff.mpr, List.append_nil]
  · intro other hother
    simpa using le_of_lt (List.rel_of_pairwise_cons hrest hother)
  · intro other hother
    simpa using hcross other hother target List.mem_cons_self

end Sorted

/-- Where ids differ, the neighbours stand in the listing around the place where the target's rank
falls. -/
theorem neighbours_of_nodup (hids : (discussions.map (·.id)).Nodup)
    (htarget : target.forumId = forum.id)
    (howned : ∀ discussion ∈ discussions, discussion.forumId = forum.id) :
    let others := (forum.ranked (discussions.filter (forum.shows viewer))).filter
      fun other => other.id ≠ target.id
    forum.neighbours viewer discussions target = .ok
      ⟨(others.filter fun other => forum.rank other < forum.rank target).head?,
        (others.filter fun other => forum.rank target < forum.rank other).getLast?⟩ := by
  intro others
  have hvisible : ((discussions.filter (forum.shows viewer)).map (·.id)).Nodup :=
    (List.filter_sublist.map _).nodup hids
  have hsorted : others.Pairwise fun a b => forum.rank b < forum.rank a :=
    (pairwise_ranked_of_nodup hvisible).filter _
  have hperm : ((discussions.filter (forum.shows viewer)).filter
      fun other => other.id ≠ target.id).Perm others :=
    (forum.ranked_perm (discussions.filter (forum.shows viewer))).symm.filter _
  rw [neighbours_of_owned htarget howned, argmax_eq_head? (hperm.filter _) (hsorted.filter _),
    argmin_eq_getLast? (hperm.filter _) (hsorted.filter _)]

/-- The neighbours of a listed discussion stand right after and right before it. -/
theorem neighbours_of_listed (hids : (discussions.map (·.id)).Nodup)
    (howned : ∀ discussion ∈ discussions, discussion.forumId = forum.id)
    (hlisted : forum.ranked (discussions.filter (forum.shows viewer)) = before ++ target :: after) :
    forum.neighbours viewer discussions target = .ok ⟨after.head?, before.getLast?⟩ := by
  have hvisible : ((discussions.filter (forum.shows viewer)).map (·.id)).Nodup :=
    (List.filter_sublist.map _).nodup hids
  have hsorted : (forum.ranked (discussions.filter (forum.shows viewer))).Pairwise fun a b =>
      forum.rank b < forum.rank a := pairwise_ranked_of_nodup hvisible
  have hperm := (forum.ranked_perm (discussions.filter (forum.shows viewer))).symm
  rw [hlisted] at hsorted hperm
  have hlistedIds := (hperm.map Discussion.id).nodup_iff.mp hvisible
  have htarget : target ∈ discussions := List.mem_of_mem_filter (hperm.mem_iff.mpr (by simp))
  rw [neighbours_of_nodup hids (howned target htarget) howned, hlisted, filter_others hlistedIds,
    filter_below hsorted, filter_above hsorted]

/-! ### Around any rank -/

/-- A rank falls between two parts of a list, and the neighbours stand on either side of that
place. -/
def FallsBetween (forum : Forum) (listed : List Discussion) (rank : Rank) (found : Neighbours) :
    Prop :=
  ∃ before after, listed = before ++ after ∧ (∀ above ∈ before, rank < forum.rank above) ∧
    (∀ below ∈ after, forum.rank below < rank) ∧ found = ⟨after.head?, before.getLast?⟩

/-- A rank that no discussion has splits a list of descending ranks in two. -/
theorem filter_append_filter {rank : Rank}
    (hsorted : listed.Pairwise fun a b => forum.rank b < forum.rank a)
    (hapart : ∀ discussion ∈ listed, forum.rank discussion ≠ rank) :
    (listed.filter fun discussion => rank < forum.rank discussion) ++
      (listed.filter fun discussion => forum.rank discussion < rank) = listed := by
  induction listed with
  | nil => rfl
  | cons first rest ih =>
      obtain ⟨hfirst, hrest⟩ := List.pairwise_cons.mp hsorted
      obtain ⟨hfirstApart, hrestApart⟩ := List.forall_mem_cons.mp hapart
      rcases lt_or_gt_of_ne hfirstApart with hbelow | habove
      · -- With the first discussion, all of the rest is below the rank.
        have hall : ∀ discussion ∈ first :: rest, forum.rank discussion < rank :=
          List.forall_mem_cons.mpr ⟨hbelow, fun later hlater => lt_trans (hfirst later hlater) hbelow⟩
        rw [List.filter_eq_nil_iff.mpr, List.filter_eq_self.mpr, List.nil_append]
        · simpa using hall
        · simpa using fun discussion hmem => le_of_lt (hall discussion hmem)
      · rw [List.filter_cons_of_pos (by simpa using habove),
          List.filter_cons_of_neg (by simpa using le_of_lt habove), List.cons_append,
          ih hrest hrestApart]

theorem fallsBetween_filter {rank : Rank}
    (hsorted : listed.Pairwise fun a b => forum.rank b < forum.rank a)
    (hapart : ∀ discussion ∈ listed, forum.rank discussion ≠ rank) :
    forum.FallsBetween listed rank
      ⟨(listed.filter fun discussion => forum.rank discussion < rank).head?,
        (listed.filter fun discussion => rank < forum.rank discussion).getLast?⟩ :=
  ⟨_, _, (filter_append_filter hsorted hapart).symm, by simp, by simp, rfl⟩

/-- The search for neighbours is a fault if another forum owns the target or one of the discussions,
and names the target, or else the first of these. In other cases it finds the closest ranks among the
visible discussions with another id. Where ids differ, these are the discussions around the place in
the listing where the target's rank falls. -/
theorem neighbours_are_closest (forum : Forum) (viewer : Viewer) (discussions : List Discussion)
    (target : Discussion) :
    ((∃ fault, forum.neighbours viewer discussions target = .error fault) ↔
      ∃ discussion ∈ target :: discussions, discussion.forumId ≠ forum.id) ∧
    (target.forumId ≠ forum.id → forum.neighbours viewer discussions target =
      .error (.foreignDiscussion target.id target.forumId forum.id)) ∧
    (target.forumId = forum.id → ∀ discussion,
      IsFirst (·.forumId ≠ forum.id) discussions discussion →
      forum.neighbours viewer discussions target =
        .error (.foreignDiscussion discussion.id discussion.forumId forum.id)) ∧
    (target.forumId = forum.id → (∀ discussion ∈ discussions, discussion.forumId = forum.id) →
      ∃ found listed, forum.neighbours viewer discussions target = .ok found ∧
        forum.listing viewer discussions = .ok listed ∧
        forum.FindsClosest
          ((discussions.filter (forum.shows viewer)).filter fun other => other.id ≠ target.id)
          (forum.rank target) found ∧
        ((discussions.map (·.id)).Nodup →
          forum.FallsBetween (listed.filter fun other => other.id ≠ target.id)
            (forum.rank target) found)) := by
  refine ⟨neighbours_eq_error_iff, neighbours_of_foreign,
    fun htarget _ => neighbours_of_isFirst htarget, fun htarget howned => ?_⟩
  refine ⟨_, _, neighbours_of_owned htarget howned, listing_of_owned howned,
    findsClosest_argmax fun _ => rank_ne_of_mem_others, fun hids => ?_⟩
  -- The neighbours that the pass finds are those that stand in the listing.
  have hfound : forum.neighbours viewer discussions target = .ok _ :=
    neighbours_of_nodup hids htarget howned
  rw [neighbours_of_owned htarget howned, Except.ok.injEq] at hfound
  rw [hfound]
  have hvisible : ((discussions.filter (forum.shows viewer)).map (·.id)).Nodup :=
    (List.filter_sublist.map _).nodup hids
  exact fallsBetween_filter ((pairwise_ranked_of_nodup hvisible).filter _)
    fun _ => rank_ne_of_mem_others

end DiscussionBoard.Forum
