import DiscussionBoard.Proofs.Subscription.Enrolment
import DiscussionBoard.Proofs.Subscription.Repetition

/-!
# The views of storage

After any requests to new storage all lists that are read off it show what the look-ups of single
rows show, and show it once. What a change answers tells what it did: whether the rows are others
than before, or how many went of those that its name selects.
-/

namespace DiscussionBoard.Subscription

/-- All lists agree with the look-ups of single rows and hold every row once. -/
structure Rows.ViewsAgree (rows : Rows) : Prop where
  stored : ∀ user discussion override, rows.overrideOf user discussion = some override →
    override.userId = user ∧ override.discussionId = discussion
  overridesOf : ∀ user forum discussion preference,
    (discussion, preference) ∈ rows.overridesOf user forum ↔
      ∃ override, rows.overrideOf user discussion = some override ∧ override.forumId = forum ∧
        override.preference = preference
  overridesOf_once : ∀ user forum, ((rows.overridesOf user forum).map (·.1)).Nodup
  overridesFor : ∀ user discussion preference,
    (user, preference) ∈ rows.overridesFor discussion ↔
      ∃ override, rows.overrideOf user discussion = some override ∧
        override.preference = preference
  overridesFor_once : ∀ discussion, ((rows.overridesFor discussion).map (·.1)).Nodup
  overridesBy : ∀ user override, override ∈ rows.overridesBy user ↔
    rows.overrideOf user override.discussionId = some override
  overridesBy_once : ∀ user, ((rows.overridesBy user).map (·.discussionId)).Nodup
  followersOf : ∀ user forum, user ∈ rows.followersOf forum ↔ rows.follows user forum = true
  followersOf_once : ∀ forum, (rows.followersOf forum).Nodup

/-- What the answer to a request tells of the rows before and after it. -/
def RowRequest.Tells (rows : Rows) : (request : RowRequest) → request.Answer → Rows → Prop
  | .follow _ _, changed, after | .unfollow _ _, changed, after
  | .putOverride _, changed, after | .dropOverride _ _, changed, after =>
    changed = true ↔ after ≠ rows
  | .clearOverrides user forum, removed, after =>
    rows.Loses (fun _ => false) (fun row => row.userId = user && row.forumId = forum) removed after
  | .eraseUser user, removed, after =>
    rows.Loses (·.userId = user) (·.userId = user) removed after
  | .eraseForum forum, removed, after =>
    rows.Loses (·.forumId = forum) (·.forumId = forum) removed after
  | .follows _ _, _, after | .followersOf _, _, after | .overrideOf _ _, _, after
  | .overridesOf _ _, _, after | .overridesFor _, _, after => after = rows

namespace Rows

variable {rows after : Rows} {user forum discussion : Id} {changed : Bool}

/-! ### Lists -/

theorem mem_overridesBy_iff {override : Override} :
    override ∈ rows.overridesBy user ↔
      rows.overrideOf user override.discussionId = some override := by
  rw [overridesBy, List.mem_filter, mem_values_iff, decide_eq_true_eq]
  constructor
  · rintro ⟨hget, rfl⟩
    exact hget
  · intro hget
    obtain ⟨rfl, -⟩ := key_of_overrideOf hget
    exact ⟨hget, rfl⟩

theorem nodup_overridesBy (rows : Rows) (user : Id) :
    ((rows.overridesBy user).map (·.discussionId)).Nodup := by
  apply nodup_map_filter_values
  intro a b ha hb hsame
  exact Prod.ext ((of_decide_eq_true ha).trans (of_decide_eq_true hb).symm) hsame

theorem nodup_followersOf (rows : Rows) (forum : Id) : (rows.followersOf forum).Nodup := by
  rw [followersOf, List.Nodup, List.pairwise_map, List.pairwise_filter]
  refine (KeySet.nodup_toList rows.followings).imp fun {a b} hne ha hb hsame => hne ?_
  cases a
  cases b
  simp_all

theorem viewsAgree (rows : Rows) : rows.ViewsAgree where
  stored _ _ _ hget := key_of_overrideOf hget
  overridesOf _ _ _ _ := mem_overridesOf_iff
  overridesOf_once := rows.nodup_overridesOf
  overridesFor _ _ _ := mem_overridesFor_iff
  overridesFor_once := rows.nodup_overridesFor
  overridesBy _ _ := mem_overridesBy_iff
  overridesBy_once := rows.nodup_overridesBy
  followersOf _ _ := mem_followersOf_iff
  followersOf_once := rows.nodup_followersOf

/-! ### Answers of changes -/

/-- Rows have changed where one of their entries has. -/
theorem changed_iff_ne (key : RowKey) (hidle : changed = false → after = rows)
    (hentry : changed = true → after.entry key ≠ rows.entry key) :
    changed = true ↔ after ≠ rows := by
  cases changed with
  | false => exact iff_of_false nofun (not_not_intro (hidle rfl))
  | true => exact iff_of_true rfl fun hsame => hentry rfl (by rw [hsame])

/-- A request that leaves the entry it names, and all others, has changed nothing. -/
theorem perform_eq_self (request : RowRequest) (key : RowKey)
    (hothers : ∀ other, other ≠ key → ∀ value, request.act other value = value)
    (hnamed : request.act key (rows.entry key) = rows.entry key) :
    (perform request rows).2 = rows := by
  refine ext_entry fun other => (entry_perform request rows other).trans ?_
  by_cases hkey : other = key
  · subst hkey
    exact hnamed
  · exact hothers other hkey (rows.entry other)

theorem fst_follow_iff (rows : Rows) (user forum : Id) :
    (rows.follow user forum).1 = true ↔ (rows.follow user forum).2 ≠ rows := by
  apply changed_iff_ne (.following user forum)
  · intro hidle
    have hfollows : rows.follows user forum = true := by simpa [follow] using hidle
    apply perform_eq_self (.follow user forum) (.following user forum)
    · intro other hother value
      cases other <;> grind [RowRequest.act]
    · exact (if_pos rfl).trans hfollows.symm
  · intro hchanged hsame
    have hfollows : rows.follows user forum = false := by simpa [follow] using hchanged
    have hafter : (rows.follow user forum).2.follows user forum = true :=
      follows_follow.mpr (.inl ⟨rfl, rfl⟩)
    exact Bool.false_ne_true (hfollows.symm.trans (hsame.symm.trans hafter))

theorem fst_unfollow_iff (rows : Rows) (user forum : Id) :
    (rows.unfollow user forum).1 = true ↔ (rows.unfollow user forum).2 ≠ rows := by
  apply changed_iff_ne (.following user forum)
  · intro hfollows
    apply perform_eq_self (.unfollow user forum) (.following user forum)
    · intro other hother value
      cases other <;> grind [RowRequest.act]
    · exact (if_pos rfl).trans hfollows.symm
  · intro hfollows hsame
    exact (follows_unfollow.mp (hsame.trans hfollows)).1 ⟨rfl, rfl⟩

theorem fst_dropOverride_iff (rows : Rows) (user discussion : Id) :
    (rows.dropOverride user discussion).1 = true ↔
      (rows.dropOverride user discussion).2 ≠ rows := by
  apply changed_iff_ne (.override user discussion)
  · intro hidle
    have hnone : rows.overrideOf user discussion = none := by
      simpa [dropOverride] using hidle
    apply perform_eq_self (.dropOverride user discussion) (.override user discussion)
    · intro other hother value
      cases other <;> grind [RowRequest.act]
    · exact (if_pos rfl).trans hnone.symm
  · intro hchanged hsame
    obtain ⟨override, hget⟩ := Option.isSome_iff_exists.mp hchanged
    exact (overrideOf_dropOverride_iff.mp (hsame.trans hget)).2 rfl

/-- A choice is written where none is stored, or another one. -/
theorem fst_putOverride_eq_true_iff (rows : Rows) (override : Override) :
    (rows.putOverride override).1 = true ↔
      rows.overrideOf override.userId override.discussionId = none ∨
        ∃ stored, rows.overrideOf override.userId override.discussionId = some stored ∧
          stored.preference ≠ override.preference := by
  rw [putOverride]
  cases rows.overrideOf override.userId override.discussionId with
  | none => simp
  | some stored => by_cases hsame : stored.preference = override.preference <;> simp [hsame]

theorem snd_putOverride_of_false {override : Override}
    (hidle : (rows.putOverride override).1 = false) : (rows.putOverride override).2 = rows := by
  rw [putOverride] at hidle ⊢
  split
  · rfl
  · rename_i hother
    rw [if_neg hother] at hidle
    cases hidle

theorem overrideOf_putOverride_of_true {override : Override}
    (hchanged : (rows.putOverride override).1 = true) :
    (rows.putOverride override).2.overrideOf override.userId override.discussionId =
      some override := by
  rw [putOverride] at hchanged ⊢
  split
  · rename_i hsame
    rw [if_pos hsame] at hchanged
    cases hchanged
  · exact overrideOf_insertOverride_self override

theorem fst_putOverride_iff (rows : Rows) (override : Override) :
    (rows.putOverride override).1 = true ↔ (rows.putOverride override).2 ≠ rows := by
  apply changed_iff_ne (.override override.userId override.discussionId) snd_putOverride_of_false
  intro hchanged hsame
  have hstored : rows.overrideOf override.userId override.discussionId = some override :=
    hsame.symm.trans (overrideOf_putOverride_of_true hchanged)
  rcases (rows.fst_putOverride_eq_true_iff override).mp hchanged with hnone | ⟨stored, hget, hne⟩
  · rw [hstored] at hnone
    cases hnone
  · rw [hstored] at hget
    cases hget
    exact hne rfl

theorem tells_perform (rows : Rows) (request : RowRequest) :
    request.Tells rows (perform request rows).1 (perform request rows).2 := by
  cases request with
  | follows | followersOf | overrideOf | overridesOf | overridesFor => rfl
  | follow user forum => exact rows.fst_follow_iff user forum
  | unfollow user forum => exact rows.fst_unfollow_iff user forum
  | putOverride override => exact rows.fst_putOverride_iff override
  | dropOverride user discussion => exact rows.fst_dropOverride_iff user discussion
  | clearOverrides user forum => exact loses_clearOverrides rows user forum
  | eraseUser user => exact rows.loses_eraseUser user
  | eraseForum forum => exact rows.loses_eraseForum forum

/-- After a history each entry is what the requests made of it, one after the other. -/
theorem entry_performAll (rows : Rows) (history : List RowRequest) (key : RowKey) :
    (rows.performAll history).entry key =
      history.foldl (fun value request => request.act key value) (rows.entry key) := by
  induction history generalizing rows with
  | nil => rfl
  | cons request rest ih => rw [performAll, ih, entry_perform, List.foldl_cons]

end Rows

/-- After any requests to empty storage a row is there if the requests, taken one by one, put it
there. All views of the rows agree, and hold each row once. The answer to any further request tells
how the rows change, and a choice is stored exactly where none or another one was, and else changes
nothing of what is stored. -/
theorem storage_views_agree (history : List RowRequest) :
    let rows := Rows.empty.performAll history
    (∀ key, rows.entry key =
      history.foldl (fun value request => request.act key value) (Rows.empty.entry key)) ∧
    rows.ViewsAgree ∧
    (∀ request : RowRequest,
      request.Tells rows (Rows.perform request rows).1 (Rows.perform request rows).2) ∧
    ∀ override : Override,
      ((rows.putOverride override).1 = true ↔
        rows.overrideOf override.userId override.discussionId = none ∨
          ∃ stored, rows.overrideOf override.userId override.discussionId = some stored ∧
            stored.preference ≠ override.preference) ∧
      ((rows.putOverride override).1 = true →
        (rows.putOverride override).2.overrideOf override.userId override.discussionId =
          some override) ∧
      ((rows.putOverride override).1 = false → (rows.putOverride override).2 = rows) := by
  intro rows
  refine ⟨Rows.empty.entry_performAll history, rows.viewsAgree, rows.tells_perform,
    fun override => ⟨rows.fst_putOverride_eq_true_iff override, ?_, ?_⟩⟩
  · exact Rows.overrideOf_putOverride_of_true
  · exact Rows.snd_putOverride_of_false

end DiscussionBoard.Subscription
