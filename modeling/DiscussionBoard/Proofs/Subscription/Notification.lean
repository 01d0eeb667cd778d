import DiscussionBoard.Proofs.Subscription.Reachable

/-!
# Notification lists agree with single users

The lists of subscribers come from the followers of a forum, corrected by the choices made for one
discussion; the answer for one user comes from the user's own choice. On every reachable desk they
agree, and the lists are strictly ascending.
-/

namespace DiscussionBoard.Subscription

/-! ### Lists of users -/

theorem pairwise_ascending {users : List Id} (hnodup : users.Nodup) :
    (ascending users).Pairwise (· < ·) := by
  have hle : (ascending users).Pairwise (fun a b => decide (a ≤ b) = true) := by
    apply List.pairwise_mergeSort
    · intro a b c hab hbc
      simp only [decide_eq_true_eq, Id.le_iff_toNat_le] at *
      exact Nat.le_trans hab hbc
    · intro a b
      simp only [Bool.or_eq_true, decide_eq_true_eq, Id.le_iff_toNat_le]
      exact Nat.le_total _ _
  have hne : (ascending users).Nodup := (List.mergeSort_perm users _).nodup_iff.mpr hnodup
  refine (hle.and hne).imp ?_
  rintro a b ⟨hab, hdiffer⟩
  rw [decide_eq_true_eq, Id.le_iff_toNat_le] at hab
  rw [Id.lt_iff_toNat_lt]
  exact Nat.lt_of_le_of_ne hab fun h => hdiffer (Id.toNat_inj.mp h)

theorem mem_ascending {users : List Id} {user : Id} : user ∈ ascending users ↔ user ∈ users :=
  List.mem_mergeSort

theorem contains_applyPreference (users : KeySet Id) (choice : Id × Preference) (user : Id) :
    Table.contains (applyPreference users choice) user = true ↔
      if user = choice.1 then choice.2 = .subscribed else users.contains user = true := by
  obtain ⟨chooser, preference⟩ := choice
  cases preference with
  | subscribed =>
      rw [applyPreference, KeySet.contains_insert]
      by_cases huser : user = chooser <;> simp [huser]
  | unsubscribed =>
      rw [applyPreference, KeySet.contains_erase]
      by_cases huser : user = chooser <;> simp [huser]

theorem contains_foldl_applyPreference {choices : List (Id × Preference)}
    (hkeys : (choices.map (·.1)).Nodup) (users : KeySet Id) (user : Id) :
    Table.contains (choices.foldl applyPreference users) user = true ↔
      (user, .subscribed) ∈ choices ∨
        user ∉ choices.map (·.1) ∧ users.contains user = true := by
  induction choices generalizing users with
  | nil => simp
  | cons choice rest ih =>
      obtain ⟨hchoice, hrest⟩ := List.nodup_cons.mp hkeys
      rw [List.foldl_cons, ih hrest, contains_applyPreference]
      by_cases huser : user = choice.1
      · subst huser
        -- A user chooses once, so no later choice overturns this one.
        have hfresh : (choice.1, Preference.subscribed) ∉ rest := fun h =>
          hchoice (List.mem_map_of_mem (f := (·.1)) h)
        have hpair : (choice.1, Preference.subscribed) = choice ↔ choice.2 = .subscribed := by
          rw [Prod.ext_iff]
          simp [eq_comm]
        simp [hfresh, hchoice, hpair]
      · have hpair : (user, Preference.subscribed) ≠ choice := fun h => huser (congrArg Prod.fst h)
        simp [huser, hpair]

/-! ### Lists and answers by the rows -/

namespace Rows

variable {rows : Rows} {register : Register} {user discussion : Id} {forum : Forum}

theorem mem_overridesFor_iff_preference {preference : Preference} :
    (user, preference) ∈ rows.overridesFor discussion ↔
      rows.preference user discussion = some preference := by
  rw [mem_overridesFor_iff, Rows.preference, Option.map_eq_some_iff]

theorem mem_map_overridesFor_iff :
    user ∈ (rows.overridesFor discussion).map (·.1) ↔
      (rows.preference user discussion).isSome = true := by
  rw [List.mem_map, Option.isSome_iff_exists]
  constructor
  · rintro ⟨choice, hchoice, rfl⟩
    exact ⟨choice.2, mem_overridesFor_iff_preference.mp hchoice⟩
  · rintro ⟨preference, hpreference⟩
    exact ⟨(user, preference), mem_overridesFor_iff_preference.mpr hpreference, rfl⟩

theorem mem_subscribers_iff_of_isOptional (hmode : forum.subscriptionMode.isOptional = true) :
    user ∈ rows.subscribers register forum ↔
      rows.isSubscribed register user forum none = true := by
  have hfollowers : user ∈ KeySet.toList (rows.at (.followers forum.id)) ↔
      rows.follows user forum.id = true := by
    rw [KeySet.mem_toList_iff, contains_followers]
  unfold subscribers isSubscribed forumLevel
  cases hforum : forum.subscriptionMode with
  | choose | initial => exact hfollowers
  | forced | disallowed => simp [hforum, SubscriptionMode.isOptional] at hmode

theorem mem_discussionSubscribers_iff_of_isOptional
    (hmode : forum.subscriptionMode.isOptional = true) :
    user ∈ rows.discussionSubscribers register forum discussion ↔
      rows.isSubscribed register user forum (some discussion) = true := by
  have hlevel : rows.forumLevel register user forum = rows.follows user forum.id := by
    unfold forumLevel
    cases hforum : forum.subscriptionMode <;> simp_all [SubscriptionMode.isOptional]
  rw [discussionSubscribers, if_pos hmode, isSubscribed, if_pos hmode, KeySet.mem_toList_iff,
    contains_foldl_applyPreference (rows.nodup_overridesFor discussion),
    mem_overridesFor_iff_preference, mem_map_overridesFor_iff, contains_followers, hlevel]
  cases rows.preference user discussion with
  | none => simp
  | some preference => cases preference <;> simp [Preference.isSubscribed]

theorem pairwise_subscribers (hnodup : (register.enrolled forum.courseId).Nodup) :
    (rows.subscribers register forum).Pairwise (· < ·) := by
  unfold subscribers
  cases forum.subscriptionMode with
  | disallowed => exact .nil
  | forced => exact pairwise_ascending (hnodup.filter _)
  | choose | initial => exact KeySet.toList_pairwise_lt _

theorem pairwise_discussionSubscribers (hnodup : (register.enrolled forum.courseId).Nodup) :
    (rows.discussionSubscribers register forum discussion).Pairwise (· < ·) := by
  unfold discussionSubscribers
  split
  · exact KeySet.toList_pairwise_lt _
  · exact pairwise_subscribers hnodup

/-- Whether a list of subscribers is right about one user's answer, by the mode of the forum. -/
def ListAgrees (register : Register) (forum : Forum) (user : Id) (listed : List Id)
    (subscribed : Bool) : Prop :=
  match forum.subscriptionMode with
  | .choose | .initial => user ∈ listed ↔ subscribed = true
  | .forced => user ∈ listed ↔ user ∈ register.enrolled forum.courseId ∧ subscribed = true
  | .disallowed => listed = [] ∧ subscribed = false

theorem listAgrees_subscribers :
    ListAgrees register forum user (rows.subscribers register forum)
      (rows.isSubscribed register user forum none) := by
  unfold ListAgrees
  cases hforum : forum.subscriptionMode with
  | choose | initial =>
      exact mem_subscribers_iff_of_isOptional (by rw [hforum]; rfl)
  | forced => simp [subscribers, isSubscribed, forumLevel, hforum, mem_ascending]
  | disallowed => simp [subscribers, isSubscribed, forumLevel, hforum]

theorem listAgrees_discussionSubscribers :
    ListAgrees register forum user (rows.discussionSubscribers register forum discussion)
      (rows.isSubscribed register user forum (some discussion)) := by
  by_cases hmode : forum.subscriptionMode.isOptional = true
  · unfold ListAgrees
    cases hforum : forum.subscriptionMode with
    | choose | initial => exact mem_discussionSubscribers_iff_of_isOptional hmode
    | forced | disallowed => simp [hforum, SubscriptionMode.isOptional] at hmode
  · rw [discussionSubscribers, if_neg hmode, isSubscribed, if_neg hmode]
    exact listAgrees_subscribers

end Rows

/-- On every reachable desk the lists of subscribers of a forum and of one of its discussions are
strictly ascending and agree with the answers for each user. -/
theorem lists_agree_with_answers {owner : Id → Id} {enabled : Bool} {desk : Desk}
    (hdesk : desk.Reachable owner enabled) (user : Id) (forum : Forum) {discussion : Id}
    (howner : owner discussion = forum.id) :
    ∃ (subscribed subscribedToForum : Bool) (listed listedForForum : List Id),
      (desk.run (isSubscribed user forum (some discussion))).1 = .ok subscribed ∧
      (desk.run (isSubscribed user forum none)).1 = .ok subscribedToForum ∧
      (desk.run (discussionSubscribers forum discussion)).1 = .ok listed ∧
      (desk.run (subscribers forum)).1 = .ok listedForForum ∧
      Rows.ListAgrees desk.register forum user listed subscribed ∧
      Rows.ListAgrees desk.register forum user listedForForum subscribedToForum ∧
      listed.Pairwise (· < ·) ∧ listedForForum.Pairwise (· < ·) := by
  obtain ⟨hcoherent, howned, hnodup⟩ := hdesk.orderly
  have hlooks : ∀ place : Option Id, (∀ found, place = some found → owner found = forum.id) →
      (desk.run (isSubscribed user forum place)).1 =
        .ok (desk.rows.isSubscribed desk.register user forum place) := by
    intro place hplace
    obtain ⟨_, hrun, -⟩ := looks_isSubscribed hcoherent howned user forum hplace
    rw [hrun]
  obtain ⟨_, hlisted, -⟩ := looks_discussionSubscribers hcoherent forum discussion
  obtain ⟨_, hlistedForForum, -⟩ := looks_subscribers hcoherent forum
  refine ⟨_, _, _, _, hlooks (some discussion) ?_, hlooks none nofun,
    congrArg Prod.fst hlisted, congrArg Prod.fst hlistedForForum,
    Rows.listAgrees_discussionSubscribers, Rows.listAgrees_subscribers,
    Rows.pairwise_discussionSubscribers (hnodup _), Rows.pairwise_subscribers (hnodup _)⟩
  rintro _ ⟨⟩
  exact howner

theorem lists_agree_with_answers_of_override :
    let forum : Forum := { id := .ofNat 1, courseId := .ofNat 2 }
    let start : Desk := ⟨.empty, {}, { enabled := true }⟩
    let following := (start.run ((Call.subscribe (.ofNat 7) forum none true).program default)).2
    let desk := (following.run
      ((Call.unsubscribe (.ofNat 7) forum (some (.ofNat 5)) true).program default)).2
    ∃ (subscribed subscribedToForum : Bool) (listed listedForForum : List Id),
      (desk.run (isSubscribed (.ofNat 7) forum (some (.ofNat 5)))).1 = .ok subscribed ∧
      (desk.run (isSubscribed (.ofNat 7) forum none)).1 = .ok subscribedToForum ∧
      (desk.run (discussionSubscribers forum (.ofNat 5))).1 = .ok listed ∧
      (desk.run (subscribers forum)).1 = .ok listedForForum ∧
      (.ofNat 7 ∈ listed ↔ subscribed = true) ∧
      (.ofNat 7 ∈ listedForForum ↔ subscribedToForum = true) := by
  intro forum start following desk
  have hfollowing : following.Reachable (fun _ => .ofNat 1) true := .call .start default trivial
  have hdesk : desk.Reachable (fun _ => .ofNat 1) true := .call hfollowing default rfl
  obtain ⟨subscribed, subscribedToForum, listed, listedForForum, hsubscribed, hsubscribedToForum,
    hlisted, hlistedForForum, hagrees, hagreesForForum, -⟩ :=
    lists_agree_with_answers hdesk (.ofNat 7) forum rfl
  exact ⟨subscribed, subscribedToForum, listed, listedForForum, hsubscribed, hsubscribedToForum,
    hlisted, hlistedForForum, hagrees, hagreesForForum⟩

end DiscussionBoard.Subscription
