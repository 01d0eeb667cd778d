import DiscussionBoard.Moderation
import DiscussionBoard.Proofs.Browsing.Arrangement
import DiscussionBoard.Proofs.Discipline

/-!
# The last accepted write

Calls browse and change stored discussions one after the other, and any request to storage may fail.
Discussions are neither added nor removed, and each field that can be set holds what the last
accepted change of it gave. No call leaves a display window that closes before it opens.
-/

namespace DiscussionBoard

namespace Moderation

/-- What can be set of a stored discussion. Both ends of the window are set together. -/
inductive Field
  | pinned | timeModified | group | window
deriving DecidableEq

abbrev Field.Value : Field → Type
  | pinned => Bool
  | timeModified => Instant
  | group => Option Id
  | window => Option Instant × Option Instant

def Field.of (discussion : Discussion) : (field : Field) → field.Value
  | pinned => discussion.pinned
  | timeModified => discussion.timeModified
  | group => discussion.groupId
  | window => (discussion.timeStart, discussion.timeEnd)

inductive Change
  | pinned (value : Bool)
  | timeModified (value : Instant)
  | group (value : Option Id)
  | window (timeStart timeEnd : Option Instant)
deriving DecidableEq

namespace Change

def program (id : Id) : Change → Program Shelf.signature Unit
  | pinned value => setPinned id value
  | timeModified value => touch id value
  | group value => setGroup id value
  | window timeStart timeEnd => setWindow id timeStart timeEnd

def apply (discussion : Discussion) : Change → Discussion
  | pinned value => { discussion with pinned := value }
  | timeModified value => { discussion with timeModified := value }
  | group value => { discussion with groupId := value }
  | window timeStart timeEnd => { discussion with timeStart, timeEnd }

/-- The value that a change gives a field. -/
def value? : (field : Field) → Change → Option field.Value
  | .pinned, pinned value => some value
  | .timeModified, timeModified value => some value
  | .group, group value => some value
  | .window, window timeStart timeEnd => some (timeStart, timeEnd)
  | _, _ => none

def isRefused : Change → Bool
  | window timeStart timeEnd => isInverted timeStart timeEnd
  | _ => false

end Change

inductive Call
  | list (forum : Forum) (viewer : Viewer)
  | neighbours (forum : Forum) (viewer : Viewer) (id : Id)
  | visible? (forum : Forum) (viewer : Viewer) (id : Id)
  | set (id : Id) (change : Change)
deriving DecidableEq

inductive Reply
  | listed (discussions : List Discussion)
  | around (found : Neighbours)
  | visible (discussion : Option Discussion)
  | changed
deriving DecidableEq

def Call.program : Call → Program Shelf.signature Reply
  | list forum viewer => .listed <$> Browsing.list forum viewer
  | neighbours forum viewer id => .around <$> Browsing.neighbours forum viewer id
  | visible? forum viewer id => .visible <$> Browsing.visible? forum viewer id
  | set id change => (fun _ => .changed) <$> change.program id

/-- A call with its outcome. -/
abbrev Entry := Call × Except Fault Reply

/-- The value that an entry gives a field of a discussion, if its call is such a change and was
accepted. -/
def accepted (field : Field) (id : Id) : Entry → Option field.Value
  | (.set other change, .ok _) => if other = id then change.value? field else none
  | _ => none

def lastAccepted (field : Field) (id : Id) (history : List Entry) : Option field.Value :=
  (history.filterMap (accepted field id)).getLast?

end Moderation

namespace Shelf

/-- Answers one request, where `fails` tells for each request, in their order, whether it fails. -/
def attempt (arrangement : Arrangement) (fails : Nat → Option Fault) (request : Request) :
    StateM (Shelf × Nat) (Except Fault (Answer request)) := fun (shelf, made) =>
  match fails made with
  | some fault => (.error fault, shelf, made + 1)
  | none =>
    (.ok (performIn arrangement request shelf).1, (performIn arrangement request shelf).2, made + 1)

/-- What a program comes to where requests can fail, the shelf it leaves, and how many requests it
made. -/
def runFailing {α : Type} (shelf : Shelf) (arrangement : Arrangement) (fails : Nat → Option Fault)
    (program : Program signature α) : Except Fault α × Shelf × Nat :=
  Program.interpret (attempt arrangement fails) program (shelf, 0)

end Shelf

namespace Moderation

open DiscussionBoard.Shelf

/-- A call with the order of storage that it meets, and which of its requests fail. -/
structure Trial where
  call : Call
  arrangement : Arrangement
  fails : Nat → Option Fault

def Trial.run (trial : Trial) (shelf : Shelf) : Except Fault Reply × Shelf × Nat :=
  shelf.runFailing trial.arrangement trial.fails trial.call.program

/-- Makes calls one after the other, and keeps their outcomes. -/
def runAll (shelf : Shelf) : List Trial → List Entry × Shelf
  | [] => ([], shelf)
  | trial :: rest =>
    let (outcome, shelf, _) := trial.run shelf
    let (history, shelf) := runAll shelf rest
    ((trial.call, outcome) :: history, shelf)

variable {shelf : Shelf} {arrangement : Arrangement} {fails : Nat → Option Fault} {id : Id}
  {change : Change} {field : Field} {discussion : Discussion}

/-! ### Changes of one discussion -/

/-- What no change sets. -/
def origin (discussion : Discussion) : Id × Id × Id × Instant :=
  (discussion.id, discussion.forumId, discussion.userId, discussion.firstPostCreated)

theorem Change.origin_apply (change : Change) (discussion : Discussion) :
    origin (change.apply discussion) = origin discussion := by
  cases change <;> rfl

theorem Change.id_apply (change : Change) (discussion : Discussion) :
    (change.apply discussion).id = discussion.id :=
  congrArg Prod.fst (change.origin_apply discussion)

theorem Change.of_apply (change : Change) (discussion : Discussion) (field : Field) :
    field.of (change.apply discussion) = (change.value? field).getD (field.of discussion) := by
  cases change <;> cases field <;> rfl

theorem get?_update {apply : Discussion → Discussion} (hid : ∀ discussion,
      (apply discussion).id = discussion.id) (shelf : Shelf) (id other : Id) :
    (shelf.update id apply).2.get? other =
      (shelf.get? other).map fun discussion => if other = id then apply discussion else discussion := by
  rw [Shelf.update]
  cases hget : shelf.get? id with
  | none =>
      by_cases hother : other = id
      · rw [hother, hget]
        rfl
      · simp [hother]
  | some found =>
      have hfound : (apply found).id = id := (hid found).trans (id_of_get? hget)
      by_cases hother : other = id
      · rw [hother, hget, ← hfound]
        simp [get?_insert_self]
      · have hne : other ≠ (apply found).id := by rwa [hfound]
        simp [hother, get?_insert_of_ne shelf hne]

theorem fst_update (shelf : Shelf) (id : Id) (apply : Discussion → Discussion) :
    (shelf.update id apply).1 = (shelf.get? id).isSome := by
  rw [Shelf.update]
  cases shelf.get? id <;> rfl

/-- A request that tells whether it found the discussion. -/
theorem runFailing_requireFound (request : Request) (found : Answer request → Bool) (id : Id) :
    shelf.runFailing arrangement fails (.ask request fun answer =>
        (fun _ => Reply.changed) <$> requireFound id (found answer)) =
      match fails 0 with
      | some fault => (.error fault, shelf, 1)
      | none =>
        (if found (performIn arrangement request shelf).1 then .ok .changed
          else .error (.discussionNotFound id), (performIn arrangement request shelf).2, 1) := by
  refine (Program.interpret_ask _ _ _ (shelf, 0)).trans ?_
  simp only [attempt]
  cases fails 0 with
  | some fault => rfl
  | none =>
      dsimp only
      cases found (performIn arrangement request shelf).1 <;> rfl

/-- A change asks at most once, and writes only where it is accepted. -/
theorem run_set (shelf : Shelf) (arrangement : Arrangement) (fails : Nat → Option Fault)
    (id : Id) (change : Change) :
    Trial.run ⟨.set id change, arrangement, fails⟩ shelf =
      if change.isRefused then (.error (.windowEndsBeforeStart id), shelf, 0)
      else match fails 0 with
        | some fault => (.error fault, shelf, 1)
        | none =>
          (if (shelf.get? id).isSome then .ok .changed else .error (.discussionNotFound id),
            (shelf.update id fun discussion => change.apply discussion).2, 1) := by
  rw [← fst_update shelf id fun discussion => change.apply discussion]
  cases change with
  | pinned value => exact runFailing_requireFound (.setPinned id value) (·) id
  | timeModified value => exact runFailing_requireFound (.setTimeModified id value) (·) id
  | group value => exact runFailing_requireFound (.setGroup id value) (·) id
  | window timeStart timeEnd =>
      rw [Trial.run, Call.program, Change.program, setWindow, Change.isRefused]
      split
      · rfl
      · exact runFailing_requireFound (.setWindow id timeStart timeEnd) (·) id

/-- A change that is not accepted leaves all as it is. -/
theorem run_set_cases (shelf : Shelf) (arrangement : Arrangement) (fails : Nat → Option Fault)
    (id : Id) (change : Change) :
    (∃ fault, (Trial.run ⟨.set id change, arrangement, fails⟩ shelf).1 = .error fault ∧ ∀ other,
      (Trial.run ⟨.set id change, arrangement, fails⟩ shelf).2.1.get? other = shelf.get? other) ∨
    (Trial.run ⟨.set id change, arrangement, fails⟩ shelf).1 = .ok .changed ∧
      change.isRefused = false ∧ ∀ other,
      (Trial.run ⟨.set id change, arrangement, fails⟩ shelf).2.1.get? other =
        (shelf.get? other).map fun found => if other = id then change.apply found else found := by
  rw [run_set]
  by_cases hrefused : change.isRefused = true
  · rw [if_pos hrefused]
    exact .inl ⟨_, rfl, fun _ => rfl⟩
  · rw [if_neg hrefused]
    cases fails 0 with
    | some fault => exact .inl ⟨fault, rfl, fun _ => rfl⟩
    | none =>
        have hafter := get?_update change.id_apply shelf id
        cases hget : shelf.get? id with
        | some found =>
            exact .inr ⟨rfl, Bool.eq_false_of_not_eq_true hrefused, hafter⟩
        | none =>
            refine .inl ⟨_, rfl, fun other => (hafter other).trans ?_⟩
            by_cases hother : other = id
            · rw [hother, hget]
              rfl
            · simp [hother]

/-! ### Calls that browse -/

def Reads : signature.Request → Prop
  | .ofForum _ | .get _ => True
  | _ => False

theorem mayAsk_load (id : Id) : (Browsing.load id).MayAsk Reads := by
  refine ⟨trivial, fun found => ?_⟩
  cases found <;> trivial

theorem mayAsk_list (forum : Forum) (viewer : Viewer) : (Browsing.list forum viewer).MayAsk Reads :=
  ⟨trivial, fun _ => Program.mayAsk_ofExcept _⟩

theorem mayAsk_neighbours (forum : Forum) (viewer : Viewer) (id : Id) :
    (Browsing.neighbours forum viewer id).MayAsk Reads := by
  apply (mayAsk_load id).bind
  intro target
  split
  · trivial
  · exact ⟨trivial, fun _ => Program.mayAsk_ofExcept _⟩

theorem mayAsk_visible? (forum : Forum) (viewer : Viewer) (id : Id) :
    (Browsing.visible? forum viewer id).MayAsk Reads :=
  (mayAsk_load id).bind fun _ => trivial

theorem runFailing_of_reads {α : Type} {program : Program signature α}
    (hprogram : program.MayAsk Reads) :
    (shelf.runFailing arrangement fails program).2.1 = shelf := by
  refine hprogram.interpret_keeps (fun state : Shelf × Nat => state.1 = shelf) ?_ rfl
  rintro request ⟨_, made⟩ hreads rfl
  simp only [attempt]
  cases fails made with
  | some fault => rfl
  | none =>
      cases request with
      | ofForum | get => rfl
      | setPinned | setTimeModified | setGroup | setWindow => exact hreads.elim

/-- A call browses, and leaves all as it is, or is a change. -/
theorem Call.browses_or_sets (call : Call) :
    call.program.MayAsk Reads ∧ (∀ id outcome (field : Field), accepted field id (call, outcome) = none) ∨
      ∃ id change, call = .set id change := by
  cases call with
  | list forum viewer => exact .inl ⟨(mayAsk_list forum viewer).map _, fun _ _ _ => rfl⟩
  | neighbours forum viewer id =>
      exact .inl ⟨(mayAsk_neighbours forum viewer id).map _, fun _ _ _ => rfl⟩
  | visible? forum viewer id =>
      exact .inl ⟨(mayAsk_visible? forum viewer id).map _, fun _ _ _ => rfl⟩
  | set id change => exact .inr ⟨id, change, rfl⟩

/-! ### Histories -/

/-- What a history makes of a discussion: it stays the same one, and each field holds what was last
accepted for it. -/
structure Reflects (history : List Entry) (id : Id) (before now : Discussion) : Prop where
  origin : origin now = origin before
  fields : ∀ field : Field, field.of now = (lastAccepted field id history).getD (field.of before)

theorem lastAccepted_cons (field : Field) (id : Id) (entry : Entry) (history : List Entry) :
    lastAccepted field id (entry :: history) =
      (lastAccepted field id history).or (accepted field id entry) := by
  rw [lastAccepted, lastAccepted, List.filterMap_cons]
  cases accepted field id entry with
  | none => simp
  | some value => cases hlast : (history.filterMap (accepted field id)).getLast? <;>
      simp [List.getLast?_cons, hlast]

theorem rel_reflects_nil (id : Id) (stored : Option Discussion) :
    Option.Rel (Reflects [] id) stored stored := by
  cases stored with
  | none => exact .none
  | some discussion => exact .some ⟨rfl, fun _ => rfl⟩

theorem rel_reflects_cons {entry : Entry} {history : List Entry}
    {before middle now : Option Discussion} (hfirst : Option.Rel (Reflects [entry] id) before middle)
    (hrest : Option.Rel (Reflects history id) middle now) :
    Option.Rel (Reflects (entry :: history) id) before now := by
  cases hfirst with
  | none =>
      cases hrest
      exact .none
  | some hfirst =>
      cases hrest with
      | some hrest =>
          refine .some ⟨hrest.origin.trans hfirst.origin, fun field => ?_⟩
          rw [hrest.fields, hfirst.fields, lastAccepted_cons, lastAccepted_cons]
          cases lastAccepted field id history <;> rfl

theorem rel_reflects_of_not_accepted {entry : Entry}
    (hentry : ∀ field : Field, accepted field id entry = none) (stored : Option Discussion) :
    Option.Rel (Reflects [entry] id) stored stored := by
  cases stored with
  | none => exact .none
  | some discussion =>
      refine .some ⟨rfl, fun field => ?_⟩
      rw [lastAccepted_cons, hentry]
      rfl

theorem rel_reflects_of_accepted (change : Change) (id : Id) (reply : Reply)
    (stored : Option Discussion) :
    Option.Rel (Reflects [(.set id change, .ok reply)] id) stored
      (stored.map fun found => change.apply found) := by
  cases stored with
  | none => exact .none
  | some discussion =>
      refine .some ⟨change.origin_apply discussion, fun field => ?_⟩
      rw [change.of_apply, lastAccepted_cons, accepted, if_pos rfl]
      rfl

/-- One call, accepted or not. -/
theorem rel_reflects_run (trial : Trial) (shelf : Shelf) (id : Id) :
    Option.Rel (Reflects [(trial.call, (trial.run shelf).1)] id) (shelf.get? id)
      ((trial.run shelf).2.1.get? id) := by
  obtain ⟨call, arrangement, fails⟩ := trial
  obtain ⟨hreads, hnever⟩ | ⟨changed, change, rfl⟩ := call.browses_or_sets
  · rw [Trial.run, runFailing_of_reads hreads]
    exact rel_reflects_of_not_accepted (hnever id _) _
  · obtain ⟨fault, houtcome, hafter⟩ | ⟨houtcome, -, hafter⟩ :=
      run_set_cases shelf arrangement fails changed change
    · rw [houtcome, hafter]
      exact rel_reflects_of_not_accepted (fun _ => rfl) _
    · rw [houtcome, hafter]
      by_cases hid : id = changed
      · subst hid
        simp only [if_true]
        exact rel_reflects_of_accepted change id .changed _
      · have hnever : ∀ field : Field,
            accepted field id (.set changed change, .ok .changed) = none :=
          fun _ => if_neg (Ne.symm hid)
        simp only [hid, if_false, Option.map_id']
        exact rel_reflects_of_not_accepted hnever _

theorem rel_reflects_runAll (shelf : Shelf) (trials : List Trial) (id : Id) :
    Option.Rel (Reflects (runAll shelf trials).1 id) (shelf.get? id)
      ((runAll shelf trials).2.get? id) := by
  induction trials generalizing shelf with
  | nil => exact rel_reflects_nil id _
  | cons trial rest ih => exact rel_reflects_cons (rel_reflects_run trial shelf id) (ih _)

/-! ### Display windows -/

theorem isInverted_eq_false_iff {timeStart timeEnd : Option Instant} :
    isInverted timeStart timeEnd = false ↔
      ∀ start close, timeStart = some start → timeEnd = some close → start < close := by
  cases timeStart with
  | none => exact iff_of_true rfl nofun
  | some start =>
      cases timeEnd with
      | none => exact iff_of_true rfl nofun
      | some close =>
          rw [isInverted, decide_eq_false_iff_not, Instant.not_le_iff_lt]
          constructor
          · rintro hlt _ _ ⟨⟩ ⟨⟩
            exact hlt
          · intro h
            exact h start close rfl rfl

theorem isRefused_eq_false_iff : change.isRefused = false ↔
    ∀ start close, change = .window (some start) (some close) → start < close := by
  cases change with
  | pinned | timeModified | group => exact iff_of_true rfl nofun
  | window timeStart timeEnd =>
      rw [Change.isRefused, isInverted_eq_false_iff]
      constructor
      · rintro h start close ⟨⟩
        exact h start close rfl rfl
      · rintro h start close rfl rfl
        exact h start close rfl

/-- Every stored display window with both ends closes after it opens. -/
def HoldsProperWindows (shelf : Shelf) : Prop :=
  ∀ id discussion start close, shelf.get? id = some discussion →
    discussion.timeStart = some start → discussion.timeEnd = some close → start < close

theorem holdsProperWindows_iff : HoldsProperWindows shelf ↔ ∀ id discussion,
    shelf.get? id = some discussion → isInverted discussion.timeStart discussion.timeEnd = false := by
  simp only [HoldsProperWindows, isInverted_eq_false_iff]
  exact ⟨fun h id discussion hget start close => h id discussion start close hget,
    fun h id discussion start close hget => h id discussion hget start close⟩

instance (shelf : Shelf) : Decidable (HoldsProperWindows shelf) :=
  decidable_of_iff (∀ discussion ∈ shelf.discussions.values,
      isInverted discussion.timeStart discussion.timeEnd = false) <| by
    simp only [holdsProperWindows_iff, Table.mem_values_iff, Shelf.get?]
    exact ⟨fun h id discussion hget => h discussion ⟨id, hget⟩,
      fun h discussion ⟨id, hget⟩ => h id discussion hget⟩

theorem isInverted_apply (hproper : isInverted discussion.timeStart discussion.timeEnd = false)
    (haccepted : change.isRefused = false) :
    isInverted (change.apply discussion).timeStart (change.apply discussion).timeEnd = false := by
  cases change with
  | pinned | timeModified | group => exact hproper
  | window timeStart timeEnd => exact haccepted

theorem holdsProperWindows_run (trial : Trial) (hshelf : HoldsProperWindows shelf) :
    HoldsProperWindows (trial.run shelf).2.1 := by
  obtain ⟨call, arrangement, fails⟩ := trial
  rw [holdsProperWindows_iff] at hshelf ⊢
  intro id discussion hget
  obtain ⟨hreads, -⟩ | ⟨changed, change, rfl⟩ := call.browses_or_sets
  · rw [Trial.run, runFailing_of_reads hreads] at hget
    exact hshelf id discussion hget
  · obtain ⟨fault, -, hafter⟩ | ⟨-, haccepted, hafter⟩ :=
      run_set_cases shelf arrangement fails changed change
    · rw [hafter] at hget
      exact hshelf id discussion hget
    · rw [hafter, Option.map_eq_some_iff] at hget
      obtain ⟨found, hfound, rfl⟩ := hget
      have hproper := hshelf id found hfound
      split
      · exact isInverted_apply hproper haccepted
      · exact hproper

theorem holdsProperWindows_runAll (trials : List Trial) (hshelf : HoldsProperWindows shelf) :
    HoldsProperWindows (runAll shelf trials).2 := by
  induction trials generalizing shelf with
  | nil => exact hshelf
  | cons trial rest ih => exact ih (holdsProperWindows_run trial hshelf)

/-- After any calls, whatever fails, the same discussions are stored and each field holds what was
last accepted for it. Where storage answers, a change is accepted if the discussion is stored and no
window is given that closes at its start or before, which is refused without a request. Proper
windows stay proper. -/
theorem fields_keep_last_accepted (shelf : Shelf) (trials : List Trial) :
    let history := (runAll shelf trials).1
    let after := (runAll shelf trials).2
    (∀ id, Option.Rel (Reflects history id) (shelf.get? id) (after.get? id)) ∧
    (∀ id change arrangement fails, fails 0 = none →
      ((Trial.run ⟨.set id change, arrangement, fails⟩ after).1 = .ok .changed ↔
        (after.get? id).isSome = true ∧
          ∀ start close, change = .window (some start) (some close) → start < close)) ∧
    (∀ id start close arrangement fails, close ≤ start →
      Trial.run ⟨.set id (.window (some start) (some close)), arrangement, fails⟩ after =
        (.error (.windowEndsBeforeStart id), after, 0)) ∧
    (HoldsProperWindows shelf → HoldsProperWindows after) := by
  intro history after
  refine ⟨rel_reflects_runAll shelf trials, ?_, ?_, holdsProperWindows_runAll trials⟩
  · intro id change arrangement fails hanswers
    rw [run_set, hanswers, ← isRefused_eq_false_iff]
    cases hrefused : change.isRefused with
    | true => simp
    | false => cases after.get? id <;> simp
  · intro id start close arrangement fails hinverted
    have hrefused : (Change.window (some start) (some close)).isRefused = true :=
      decide_eq_true hinverted
    rw [run_set, if_pos hrefused]

theorem fields_keep_last_accepted_of_rejections :
    let discussion := Discussion.opened (.ofNat 11) (.ofNat 1) (.ofNat 8) (.ofSeconds 11)
    let shelf := Shelf.empty.insert discussion
    let answering (call : Call) : Trial := ⟨call, .ascending, fun _ => none⟩
    let lost (call : Call) : Trial := ⟨call, .ascending, fun _ => some (.storage "connection lost" [])⟩
    let trials := [answering (.set (.ofNat 11) (.pinned true)),
      lost (.set (.ofNat 11) (.pinned false)),
      answering (.set (.ofNat 11) (.window (some (.ofSeconds 60)) (some (.ofSeconds 60)))),
      answering (.set (.ofNat 12) (.group (some (.ofNat 3)))),
      answering (.set (.ofNat 11) (.window (some (.ofSeconds 60)) (some (.ofSeconds 90))))]
    let after := (runAll shelf trials).2
    HoldsProperWindows shelf ∧ HoldsProperWindows after ∧
      (Trial.run (lost (.set (.ofNat 12) (.window (some (.ofSeconds 60)) (some (.ofSeconds 60)))))
        after) = (.error (.windowEndsBeforeStart (.ofNat 12)), after, 0) ∧
      (Trial.run (answering (.set (.ofNat 11) (.group none))) after).1 = .ok .changed ∧
      after.get? (.ofNat 11) = some { discussion with
        pinned := true, timeStart := some (.ofSeconds 60), timeEnd := some (.ofSeconds 90) } := by
  intro discussion shelf answering lost trials after
  obtain ⟨-, haccepted, hrefused, hproper⟩ := fields_keep_last_accepted shelf trials
  have hshelf : HoldsProperWindows shelf := by decide +kernel
  refine ⟨hshelf, hproper hshelf, hrefused _ _ _ _ _ (by decide +kernel), ?_, by decide +kernel⟩
  exact (haccepted _ _ _ _ rfl).mpr ⟨by decide +kernel, nofun⟩

end Moderation

end DiscussionBoard
