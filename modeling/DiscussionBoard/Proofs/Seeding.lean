import Mathlib.Data.List.Nodup
import DiscussionBoard.Proofs.Moderation.LastWrite
import DiscussionBoard.Proofs.Subscription.DiscussionChange
import DiscussionBoard.Proofs.Subscription.Erasure
import DiscussionBoard.Seeding.Log

/-!
# What a seeded forum shows

The seeded discussions are numbered by the hours after the first. The first is pinned and heads the
list, and the others follow it, the latest first. Of what stands around the middle discussion this
leaves few cases. The reader, who follows the forum from the enrolment on and opts out of the middle
discussion, is the only follower, so nobody is left to be notified of that discussion. A run logs
this in one event for each listed discussion and two for the reader, as far as its filter lets them
through, and the built-in one lets all through.
-/

namespace DiscussionBoard.Seeding

open DiscussionBoard.Shelf DiscussionBoard.Subscription

variable {names : Names} {opening now : Instant} {count hour middle : Nat} {viewer : Viewer}

/-! ### What is shown -/

/-- The discussion of an hour once the first is pinned. -/
def found (names : Names) (opening : Instant) (hour : Nat) : Discussion :=
  { Discussion.opened (discussionId names hour) (forum names).id (author names)
      (opening.addHours hour) with pinned := hour = 0 }

/-- The hours in the order in which their discussions are listed. -/
def ranking (count : Nat) : List Nat :=
  0 :: (List.range' 1 (count - 1)).reverse

/-- The hour whose discussion is listed below that of another hour. -/
def below (hour : Nat) : Option Nat :=
  if 2 ≤ hour then some (hour - 1) else none

/-- The hour whose discussion is listed above that of another hour. -/
def above (count hour : Nat) : Option Nat :=
  if hour + 1 < count then some (hour + 1) else if hour ≠ 0 then some 0 else none

def around (names : Names) (opening : Instant) (count middle : Nat) : Neighbours where
  prev := (below middle).map (found names opening)
  next := (above count middle).map (found names opening)

def seen (names : Names) (opening : Instant) (count : Nat) : Report where
  listing := (ranking count).map (found names opening)
  navigation := some ⟨discussionId names (count / 2), around names opening count (count / 2)⟩
  standing := some ⟨true, false, 0⟩

/-- The event for an hour with its place in the list. -/
def listed (names : Names) (opening : Instant) (entry : Nat × Nat) : LogEvent :=
  ⟨"listing", [
    ("rank", .int entry.2), ("id", .text (discussionId names entry.1).toString),
    ("pinned", .bool (entry.1 = 0)), ("modified", .text (opening.addHours entry.1).display)]⟩

/-- All events of a run. -/
def pictured (names : Names) (opening : Instant) (count : Nat) : List LogEvent :=
  (ranking count).zipIdx.map (listed names opening) ++ [
    ⟨"navigation", [
      ("discussion", .text (discussionId names (count / 2)).toString),
      ("prev", LogEvent.idField ((below (count / 2)).map (discussionId names))),
      ("next", LogEvent.idField ((above count (count / 2)).map (discussionId names)))]⟩,
    ⟨"reader subscription", [
      ("forum_level", .bool true), ("discussion_level", .bool false), ("subscribers", .int 0)]⟩]

/-- Whether a filter lets an event through. -/
def LogEvent.passes (filter : LogFilter) (event : LogEvent) : Bool :=
  filter.shows source ("message" :: event.fields.map (·.1)) .info

/-! ### The order of the hours -/

theorem mem_ranking (hcount : 1 ≤ count) : hour ∈ ranking count ↔ hour < count := by
  rw [ranking, List.mem_cons, List.mem_reverse, List.mem_range'_1]
  omega

/-- After an hour other than the first come the earlier ones, and before it the later ones. -/
theorem ranking_eq_append (hpos : middle ≠ 0) (hlt : middle < count) :
    ranking count = (0 :: (List.range' (middle + 1) (count - 1 - middle)).reverse) ++
      middle :: (List.range' 1 (middle - 1)).reverse := by
  have hsplit : List.range' 1 (count - 1) =
      List.range' 1 (middle - 1) ++ middle :: List.range' (middle + 1) (count - 1 - middle) := by
    have hfirst : 1 + (middle - 1) = middle := by omega
    have hcount : count - 1 = (middle - 1) + (count - 1 - middle + 1) := by omega
    rw [hcount, ← List.range'_append_1, hfirst, List.range'_succ]
    congr 3
    omega
  rw [ranking, hsplit]
  simp

theorem around_eq (hpos : middle ≠ 0) (hlt : middle < count) :
    around names opening count middle =
      ⟨((List.range' 1 (middle - 1)).reverse.map (found names opening)).head?,
        ((0 :: (List.range' (middle + 1) (count - 1 - middle)).reverse).map
          (found names opening)).getLast?⟩ := by
  rw [around, below, above, Neighbours.mk.injEq]
  simp only [List.head?_map, List.head?_reverse, List.getLast?_map, List.getLast?_cons,
    List.getLast?_reverse, List.getLast?_range', List.head?_range']
  constructor
  · by_cases hprev : 2 ≤ middle
    · have hnone : middle - 1 ≠ 0 := by omega
      have hsame : 1 + (middle - 1) - 1 = middle - 1 := by omega
      rw [if_pos hprev, if_neg hnone, hsame, Option.map_some]
    · have hnone : middle - 1 = 0 := by omega
      rw [if_neg hprev, if_pos hnone, Option.map_none]
  · by_cases hnext : middle + 1 < count
    · have hnone : count - 1 - middle ≠ 0 := by omega
      rw [if_pos hnext, if_neg hnone, Option.getD_some, Option.map_some]
    · have hnone : count - 1 - middle = 0 := by omega
      rw [if_neg hnext, if_pos hpos, if_pos hnone, Option.getD_none, Option.map_some]

theorem rank_found_lt_pinned (hpos : hour ≠ 0) :
    (forum names).rank (found names opening hour) < (forum names).rank (found names opening 0) := by
  rw [Rank.lt_iff]
  simp [Forum.rank, found, hpos]

theorem rank_found_lt (hpos : hour ≠ 0) (hlt : hour < middle) :
    (forum names).rank (found names opening hour) <
      (forum names).rank (found names opening middle) := by
  have hmiddle : middle ≠ 0 := by omega
  rw [Rank.lt_iff]
  refine .inr ⟨by simp [Forum.rank, found, hpos, hmiddle], .inl ?_⟩
  change (opening.addHours hour).ticks < (opening.addHours middle).ticks
  rw [Instant.ticks_addHours, Instant.ticks_addHours]
  omega

theorem pairwise_found_ranking (names : Names) (opening : Instant) (count : Nat) :
    ((ranking count).map (found names opening)).Pairwise
      fun a b => (forum names).rank b < (forum names).rank a := by
  rw [List.pairwise_map, ranking, List.pairwise_cons, List.pairwise_reverse]
  constructor
  · intro hour hmem
    rw [List.mem_reverse, List.mem_range'_1] at hmem
    exact rank_found_lt_pinned (by omega)
  · refine List.Pairwise.imp_of_mem (fun hearlier _ hlt => ?_) List.pairwise_lt_range'
    rw [List.mem_range'_1] at hearlier
    exact rank_found_lt (by omega) hlt

/-! ### The shelf -/

theorem get?_foldl_insert_iff {discussions : List Discussion} {id : Id} {discussion : Discussion}
    (hids : (discussions.map (·.id)).Nodup) :
    (discussions.foldl Shelf.insert Shelf.empty).get? id = some discussion ↔
      discussion ∈ discussions ∧ discussion.id = id := by
  have hfold : ∀ shelf : Shelf, (discussions.foldl Shelf.insert shelf).discussions =
      (discussions.map fun discussion => (discussion.id, discussion)).foldl
        (fun table entry => table.insert entry.1 entry.2) shelf.discussions := by
    intro shelf
    induction discussions generalizing shelf with
    | nil => rfl
    | cons first rest ih => exact ih (List.nodup_cons.mp hids).2 _
  have hkeys : ((discussions.map fun discussion => (discussion.id, discussion)).map (·.1)).Nodup := by
    rw [List.map_map]
    exact hids
  rw [Shelf.get?, hfold, Table.get?_foldl_insert hkeys]
  simp [Shelf.empty, and_comm]

def pin (discussion : Discussion) : Discussion :=
  { discussion with pinned := true }

/-- The shelf after the first discussion is pinned. -/
def pinnedShelf (names : Names) (opening : Instant) (count : Nat) : Shelf :=
  ((shelf names opening count).update (discussionId names 0) pin).2

theorem run_setPinned {shelf : Shelf} {id : Id} (hfound : (shelf.get? id).isSome = true) :
    shelf.run .ascending (Moderation.setPinned id true) = (.ok (), (shelf.update id pin).2) := by
  have hanswer : (shelf.update id pin).1 = true := (Moderation.fst_update shelf id pin).trans hfound
  have hrequire : (shelf.update id pin).2.run .ascending
      (Moderation.requireFound id (shelf.update id pin).1) =
        (.ok (), (shelf.update id pin).2) := by
    rw [hanswer]
    rfl
  exact hrequire

section Distinct

variable (hnames : ((List.range count).map (discussionId names)).Nodup)
include hnames

theorem get?_shelf_iff {id : Id} {discussion : Discussion} :
    (shelf names opening count).get? id = some discussion ↔
      ∃ hour < count, discussionId names hour = id ∧
        discussion = { found names opening hour with pinned := false } := by
  have hids : ((discussions names opening count).map (·.id)).Nodup := by
    rw [discussions, List.map_map]
    exact hnames
  rw [shelf, get?_foldl_insert_iff hids, discussions, List.mem_map]
  constructor
  · rintro ⟨⟨hour, hhour, rfl⟩, hid⟩
    exact ⟨hour, List.mem_range.mp hhour, hid, rfl⟩
  · rintro ⟨hour, hhour, hid, rfl⟩
    exact ⟨⟨hour, List.mem_range.mpr hhour, rfl⟩, hid⟩

/-- Only the first discussion has its id, so that only this one is pinned. -/
theorem pin_opened (hcount : 1 ≤ count) (hhour : hour < count) :
    (if discussionId names hour = discussionId names 0
      then pin { found names opening hour with pinned := false }
      else { found names opening hour with pinned := false }) = found names opening hour := by
  have hfirst : discussionId names hour = discussionId names 0 ↔ hour = 0 :=
    ⟨List.inj_on_of_nodup_map hnames (List.mem_range.mpr hhour) (List.mem_range.mpr hcount),
      congrArg (discussionId names)⟩
  by_cases hpos : hour = 0
  · rw [if_pos (hfirst.mpr hpos), hpos]
    rfl
  · rw [if_neg (mt hfirst.mp hpos)]
    simp [found, hpos]

theorem get?_pinnedShelf_iff (hcount : 1 ≤ count) {id : Id} {discussion : Discussion} :
    (pinnedShelf names opening count).get? id = some discussion ↔
      ∃ hour < count, discussionId names hour = id ∧ discussion = found names opening hour := by
  have hid : ∀ discussion, (pin discussion).id = discussion.id := fun _ => rfl
  rw [pinnedShelf, Moderation.get?_update hid, Option.map_eq_some_iff]
  simp only [get?_shelf_iff hnames]
  constructor
  · rintro ⟨_, ⟨hour, hhour, rfl, rfl⟩, rfl⟩
    exact ⟨hour, hhour, rfl, pin_opened hnames hcount hhour⟩
  · rintro ⟨hour, hhour, rfl, rfl⟩
    exact ⟨_, ⟨hour, hhour, rfl, rfl⟩, pin_opened hnames hcount hhour⟩

theorem run_pinFirst (hcount : 1 ≤ count) :
    (shelf names opening count).run .ascending
        (pinFirst ((List.range count).map (discussionId names))) =
      (.ok (), pinnedShelf names opening count) := by
  obtain ⟨later, rfl⟩ := Nat.exists_eq_add_of_le' hcount
  have hstored : (shelf names opening (later + 1)).get? (discussionId names 0) =
      some { found names opening 0 with pinned := false } :=
    (get?_shelf_iff hnames).mpr ⟨0, hcount, rfl, rfl⟩
  rw [List.range_succ_eq_map, List.map_cons, pinFirst]
  exact run_setPinned (Option.isSome_of_eq_some hstored)

/-- The list goes by the hours in their order. -/
theorem shown_pinnedShelf (hcount : 1 ≤ count) :
    Browsing.shown (pinnedShelf names opening count) (forum names) viewer =
      (ranking count).map (found names opening) := by
  -- Both lists fall in rank, so that they are one list if they have the same members.
  refine Forum.eq_of_mem_iff Browsing.pairwise_shown (pairwise_found_ranking names opening count)
    fun discussion => ?_
  rw [Browsing.mem_shown_iff, get?_pinnedShelf_iff hnames hcount, List.mem_map]
  simp only [mem_ranking hcount]
  constructor
  · rintro ⟨⟨hour, hhour, -, rfl⟩, -, -⟩
    exact ⟨hour, hhour, rfl⟩
  · rintro ⟨hour, hhour, rfl⟩
    exact ⟨⟨hour, hhour, rfl, rfl⟩, rfl, rfl⟩

theorem run_neighbours_middle (hcount : 1 ≤ count) :
    (pinnedShelf names opening count).run .ascending
        (Browsing.neighbours (forum names) viewer (discussionId names (count / 2))) =
      (.ok (around names opening count (count / 2)), pinnedShelf names opening count) := by
  have hshown : Browsing.shown (pinnedShelf names opening count) (forum names) viewer =
      (ranking count).map (found names opening) := shown_pinnedShelf hnames hcount
  by_cases hmiddle : count / 2 = 0
  · -- A single discussion has nothing around it.
    obtain rfl : count = 1 := by omega
    have halone : Browsing.shown (pinnedShelf names opening 1) (forum names) viewer =
        [] ++ [found names opening 0] := hshown
    exact Browsing.run_neighbours_of_shown .ascending halone
  · have hlt : count / 2 < count := by omega
    rw [ranking_eq_append hmiddle hlt, List.map_append, List.map_cons] at hshown
    rw [around_eq hmiddle hlt]
    exact Browsing.run_neighbours_of_shown .ascending hshown

/-- The reader sees the list, and around the middle discussion what stands beside it there. -/
theorem run_browse (hcount : 1 ≤ count) :
    (shelf names opening count).run .ascending
        (browse (forum names) viewer ((List.range count).map (discussionId names))) =
      (.ok ((ranking count).map (found names opening),
        some ⟨discussionId names (count / 2), around names opening count (count / 2)⟩),
        pinnedShelf names opening count) := by
  have hmiddle : ((List.range count).map (discussionId names))[count / 2]? =
      some (discussionId names (count / 2)) := by
    rw [List.getElem?_map, List.getElem?_range (by omega), Option.map_some]
  have hlist : (pinnedShelf names opening count).run .ascending
      (Browsing.list (forum names) viewer) =
        (.ok ((ranking count).map (found names opening)), pinnedShelf names opening count) := by
    rw [Browsing.run_list, shown_pinnedShelf hnames hcount]
  have hnavigate : (pinnedShelf names opening count).run .ascending
      (navigate (forum names) viewer (discussionId names (count / 2))) = (.ok
        ⟨discussionId names (count / 2), around names opening count (count / 2)⟩,
        pinnedShelf names opening count) := by
    rw [navigate, run_bind_of_ok (run_neighbours_middle hnames hcount)]
    rfl
  rw [browse, run_bind_of_ok (run_pinFirst hnames hcount), run_bind_of_ok hlist, List.length_map,
    List.length_range, hmiddle]
  dsimp only
  rw [run_bind_of_ok hnavigate]
  rfl

end Distinct

/-! ### The reader's subscriptions -/

section OptOut

variable {rows : Rows} {register : Register} {forum : Forum} {reader discussion : Id}
  (hmode : forum.subscriptionMode.isOptional = true)
  (hfollows : ∀ user, rows.follows user forum.id = true ↔ user = reader)
include hmode hfollows

theorem isSubscribed_optedOut_forum (now : Instant) :
    (rows.changeDiscussion register now .unsubscribed reader forum discussion).2.isSubscribed register
      reader forum none = true := by
  rw [Rows.isSubscribed_changeDiscussion_of_ne hmode now (by simp), Rows.isSubscribed,
    rows.forumLevel_of_isOptional hmode]
  exact (hfollows reader).mpr rfl

variable (hstored : ∀ user, rows.overrideOf user discussion = none)
include hstored

/-- The reader opts out, and others never followed. -/
theorem isSubscribed_optedOut (now : Instant) (user : Id) :
    (rows.changeDiscussion register now .unsubscribed reader forum discussion).2.isSubscribed register
      user forum (some discussion) = false := by
  by_cases huser : user = reader
  · rw [huser]
    exact Rows.isSubscribed_changeDiscussion hmode now
  · have hplace : (user, some discussion) ≠ (reader, some discussion) :=
      fun hsame => huser (congrArg Prod.fst hsame)
    have hnever : rows.follows user forum.id = false :=
      Bool.eq_false_of_not_eq_true (mt (hfollows user).mp huser)
    rw [Rows.isSubscribed_changeDiscussion_of_ne hmode now hplace]
    refine Rows.isSubscribed_of_absent hmode register hnever ?_
    rintro _ ⟨⟩
    exact hstored user

theorem discussionSubscribers_optedOut (now : Instant) :
    (rows.changeDiscussion register now .unsubscribed reader forum discussion).2.discussionSubscribers
      register forum discussion = [] := by
  refine List.eq_nil_iff_forall_not_mem.mpr fun user huser => ?_
  rw [Rows.mem_discussionSubscribers_iff_of_isOptional hmode,
    isSubscribed_optedOut hmode hfollows hstored] at huser
  cases huser

end OptOut

theorem run_enrolled (names : Names) (cacheEnabled : Bool) (now : Instant) :
    ∃ added rows cache, (desk names cacheEnabled).run
        (Subscription.enrolled (reader names) [forum names]) =
          (.ok added, ⟨rows, register names, cache⟩) ∧
      Desk.Orderly (fun _ => (forum names).id) ⟨rows, register names, cache⟩ ∧
      (∀ user, rows.follows user (forum names).id = true ↔ user = reader names) ∧
      ∀ user discussion, rows.overrideOf user discussion = none := by
  have hdesk : (desk names cacheEnabled).Reachable (fun _ => (forum names).id) cacheEnabled :=
    .enrol (.enrol .start (names 0) (author names)) (names 0) (reader names)
  obtain ⟨cache, hrun, hjoined⟩ := hdesk.orderly.run_settled
    (settles_enrolled _ (reader names) [forum names]) now (.enrolled (reader names) [forum names])
    rfl trivial
  refine ⟨_, _, cache, hrun, hjoined, fun user => ?_, fun _ _ => rfl⟩
  have hfollowed : ((Rows.empty.follow (reader names) (forum names).id).2).follows user
      (forum names).id = true ↔ _ := Rows.follows_follow
  have hnone : Rows.empty.follows user (forum names).id = false := rfl
  rw [hnone] at hfollowed
  exact hfollowed.trans (by simp)

/-- With or without a cache the reader stays subscribed to the forum, but neither the reader nor
anybody else to the discussion. -/
theorem run_optOut (names : Names) (cacheEnabled : Bool) (now : Instant) (discussion : Id) :
    ((desk names cacheEnabled).run (optOut now (forum names) (reader names) discussion)).1 =
      .ok ⟨true, false, 0⟩ := by
  -- Each look finds the cache as the one before left it, and answers from the rows in any case.
  obtain ⟨added, rows, cache, henrolled, hjoined, hfollows, hstored⟩ :=
    run_enrolled names cacheEnabled now
  obtain ⟨cache, hchange, hout⟩ := hjoined.run_change now .unsubscribed (reader names)
    (forum names) (some discussion) (fun _ _ => rfl) true
  obtain ⟨cache, hforum, hcoherent⟩ :=
    looks_isSubscribed hout.coherent hout.owned (reader names) (forum names) (fun _ _ => rfl)
  obtain ⟨cache, hdiscussion, hcoherent⟩ :=
    looks_isSubscribed hcoherent hout.owned (reader names) (forum names) (fun _ _ => rfl)
  obtain ⟨cache, hsubscribers, -⟩ :=
    looks_discussionSubscribers hcoherent (forum names) discussion
  rw [optOut, run_bind_of_ok henrolled, unsubscribe, run_bind_of_ok hchange, run_bind_of_ok hforum,
    run_bind_of_ok hdiscussion, run_bind_of_ok hsubscribers]
  have hmode : (forum names).subscriptionMode.isOptional = true := rfl
  have hnone : ∀ user, rows.overrideOf user discussion = none := fun user => hstored user discussion
  dsimp only [Rows.change]
  rw [isSubscribed_optedOut_forum hmode hfollows, isSubscribed_optedOut hmode hfollows hnone,
    discussionSubscribers_optedOut hmode hfollows hnone]
  rfl

/-! ### The log -/

theorem report_eq_seen (hcount : 1 ≤ count)
    (hnames : ((List.range count).map (discussionId names)).Nodup) (cacheEnabled : Bool) :
    report names opening now count cacheEnabled = .ok (seen names opening count) := by
  have hbrowse : (Program.run Shelf.perform
      (browse (forum names) (.participant (reader names) now)
        ((List.range count).map (discussionId names))) (shelf names opening count)).1 =
      .ok ((ranking count).map (found names opening),
        some ⟨discussionId names (count / 2), around names opening count (count / 2)⟩) := by
    rw [← run_ascending, run_browse hnames hcount]
  have hoptOut : (Program.run Desk.perform
      (optOut now (forum names) (reader names) (discussionId names (count / 2)))
      (desk names cacheEnabled)).1 = .ok ⟨true, false, 0⟩ :=
    run_optOut names cacheEnabled now (discussionId names (count / 2))
  rw [report, hbrowse]
  exact congrArg (fun outcome : Except Fault Standing => outcome >>= fun standing => .ok
    ({ seen names opening count with standing := some standing } : Report)) hoptOut

theorem events_seen (names : Names) (opening : Instant) (count : Nat) :
    (seen names opening count).events = pictured names opening count := by
  have hlisting : ((ranking count).map (found names opening)).zipIdx.map LogEvent.ofListed =
      (ranking count).zipIdx.map (listed names opening) := by
    rw [List.zipIdx_map, List.map_map]
    rfl
  have hbelow : (around names opening count (count / 2)).prev.map (·.id) =
      (below (count / 2)).map (discussionId names) := Option.map_map ..
  have habove : (around names opening count (count / 2)).next.map (·.id) =
      (above count (count / 2)).map (discussionId names) := Option.map_map ..
  rw [pictured, ← hlisting, ← hbelow, ← habove, Report.events, List.append_assoc]
  rfl

section Passing

variable {α : Type} {filter : LogFilter} {event : α → LogEvent} (fields : List String)
  (hfields : ∀ value, (event value).fields.map (·.1) = fields)
include hfields

/-- Of events with the same fields all pass or none. -/
theorem filter_map_eq_ite (values : List α) :
    (values.map event).filter (·.passes filter) =
      if filter.shows source ("message" :: fields) .info then values.map event else [] := by
  have hpasses : ∀ value, (event value).passes filter =
      filter.shows source ("message" :: fields) .info :=
    fun value => by rw [LogEvent.passes, hfields value]
  split
  · rename_i hshows
    refine List.filter_eq_self.mpr fun found hfound => ?_
    obtain ⟨value, -, rfl⟩ := List.mem_map.mp hfound
    exact (hpasses value).trans hshows
  · rename_i hshows
    refine List.filter_eq_nil_iff.mpr fun found hfound => ?_
    obtain ⟨value, -, rfl⟩ := List.mem_map.mp hfound
    rwa [hpasses value]

theorem toList_map_ite (value : Option α) :
    ((if filter.shows source ("message" :: fields) .info then value else none).map event).toList =
      (value.map event).toList.filter (·.passes filter) := by
  rw [Option.toList_map, Option.toList_map, filter_map_eq_ite fields hfields]
  split <;> rfl

end Passing

/-- What a filter shows of a report are those of its events that it lets through. -/
theorem events_through (report : Report) (filter : LogFilter) :
    (report.through filter).events = report.events.filter (·.passes filter) := by
  have hlisting : (report.through filter).listing.zipIdx.map LogEvent.ofListed =
      (report.listing.zipIdx.map LogEvent.ofListed).filter (·.passes filter) := by
    rw [filter_map_eq_ite listedFields fun _ => rfl, Report.through]
    dsimp only
    split <;> rfl
  have hnavigation : ((report.through filter).navigation.map LogEvent.ofNavigation).toList = _ :=
    toList_map_ite navigationFields (fun _ => rfl) report.navigation
  have hstanding : ((report.through filter).standing.map LogEvent.ofStanding).toList = _ :=
    toList_map_ite standingFields (fun _ => rfl) report.standing
  rw [Report.events, Report.events, List.filter_append, List.filter_append, hlisting, hnavigation,
    hstanding]

theorem ofString_info : LogFilter.ofString "info" = .ok ⟨[{ level := .info }]⟩ := by
  decide +kernel

theorem passes_info (event : LogEvent) : event.passes ⟨[{ level := .info }]⟩ = true := by
  simp [LogEvent.passes, LogFilter.shows, LogFilter.deciding?, LogDirective.isAbout, LogDirective.moreSpecific, LogLevel.admits]

/-- Where the discussions begin at an instant that is reckoned and have ids of their own, a run logs
the events that its filter lets through of these: each discussion with its place in the list, which
starts with the first one, the only pinned one, and goes on from the last to the second; what stands
around the middle one; and that the reader is subscribed to the forum, but nobody to the middle
discussion. The built-in filter lets all through. -/
theorem seeding_logs_pictured (names : Names) (now : Instant) (settings : Settings)
    (hcount : 1 ≤ settings.discussions)
    (hnames : ((List.range settings.discussions).map (discussionId names)).Nodup)
    (hopening : (now.addHours (-settings.discussions)).IsReckoned) :
    let events := pictured names (now.addHours (-settings.discussions)) settings.discussions
    (∀ filter, (perform names now settings filter).exitCode = 0 ∧
      (perform names now settings filter).log = events.filter (·.passes filter)) ∧
    ∀ (reader : Settings.Reader) filterVariable files vars, reader.load files vars = .ok settings →
      (∀ filter, logFilter (filterOfHost? filterVariable (Settings.environment files vars))
          settings = .ok filter →
        (outcomeBy reader filterVariable files vars names now).exitCode = 0 ∧
        (outcomeBy reader filterVariable files vars names now).log =
          events.filter (·.passes filter)) ∧
      (filterOfHost? filterVariable (Settings.environment files vars) = none →
        settings.filter = ({} : Settings).filter →
        (outcomeBy reader filterVariable files vars names now).exitCode = 0 ∧
        (outcomeBy reader filterVariable files vars names now).log = events) := by
  intro events
  have hperform : ∀ filter, perform names now settings filter =
      .reported settings.format
        ((seen names (now.addHours (-settings.discussions)) settings.discussions).through filter) := by
    intro filter
    rw [perform, opening?, if_pos hopening]
    dsimp only
    rw [report_eq_seen hcount hnames]
  have hlog : ∀ filter, (perform names now settings filter).exitCode = 0 ∧
      (perform names now settings filter).log = events.filter (·.passes filter) := by
    intro filter
    rw [hperform filter]
    refine ⟨rfl, (events_through _ filter).trans ?_⟩
    rw [events_seen]
  refine ⟨hlog, fun reader filterVariable files vars hload => ?_⟩
  have houtcome : ∀ filter, logFilter (filterOfHost? filterVariable
      (Settings.environment files vars)) settings = .ok filter →
      outcomeBy reader filterVariable files vars names now =
        perform names now settings filter := by
    intro filter hfilter
    rw [outcomeBy, hload]
    dsimp only
    rw [hfilter]
  constructor
  · intro filter hfilter
    rw [houtcome filter hfilter]
    exact hlog filter
  · intro hhost hbuiltIn
    have hfilter : logFilter (filterOfHost? filterVariable (Settings.environment files vars))
        settings = .ok ⟨[{ level := .info }]⟩ := by
      rw [hhost, logFilter, hbuiltIn]
      exact ofString_info
    have hall : events.filter (·.passes ⟨[{ level := .info }]⟩) = events :=
      List.filter_eq_self.mpr fun event _ => passes_info event
    rw [houtcome _ hfilter, ← hall]
    exact hlog _

/-- Five discussions, seeded as the built-in settings say and logged through the built-in filter. -/
theorem seeding_logs_pictured_of_five :
    let names : Names := Id.ofNat
    let id (hour : Nat) : Document := .text (Id.ofNat (hour + 4)).toString
    let beside (hour : Nat) : Document := .text ("Some(" ++ (Id.ofNat (hour + 4)).toString ++ ")")
    let entry (rank hour : Nat) (pinned : Bool) (modified : String) : LogEvent :=
      ⟨"listing", [("rank", .int rank), ("id", id hour), ("pinned", .bool pinned),
        ("modified", .text modified)]⟩
    (1 ≤ 5 ∧ ((List.range 5).map (discussionId names)).Nodup ∧
      ((default : Instant).addHours (-5)).IsReckoned) ∧
    Settings.load (fun _ => none) [] = .ok default ∧
    (outcome none (fun _ => none) [] names default).exitCode = 0 ∧
    (outcome none (fun _ => none) [] names default).log = [
      entry 0 0 true "1969-12-31 19:00:00 UTC", entry 1 4 false "1969-12-31 23:00:00 UTC",
      entry 2 3 false "1969-12-31 22:00:00 UTC", entry 3 2 false "1969-12-31 21:00:00 UTC",
      entry 4 1 false "1969-12-31 20:00:00 UTC",
      ⟨"navigation", [("discussion", id 2), ("prev", beside 1), ("next", beside 3)]⟩,
      ⟨"reader subscription", [
        ("forum_level", .bool true), ("discussion_level", .bool false),
        ("subscribers", .int 0)]⟩] := by
  intro names id beside entry
  have hcount : 1 ≤ 5 := by decide
  have hnames : ((List.range 5).map (discussionId names)).Nodup := by decide
  have hopening : ((default : Instant).addHours (-5)).IsReckoned := by decide
  have hload : Settings.load (fun _ => none) [] = .ok default := by rfl
  have hlogged := ((seeding_logs_pictured names default default hcount hnames hopening).2
    .plain none (fun _ => none) [] hload).2 rfl rfl
  exact ⟨⟨hcount, hnames, hopening⟩, hload, hlogged.1, hlogged.2.trans rfl⟩

end DiscussionBoard.Seeding
