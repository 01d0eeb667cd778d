import Mathlib.Data.List.Induction
import Mathlib.Data.Nat.Find
import DiscussionBoard.Proofs.Subscription.Notification

/-!
# What the register remembers

A new register that hears of enrolments, their ends and prohibitions answers from this history alone.
A user is listed in a course while the latest event on the two is an enrolment, in the place of the
enrolment that began it. So the users who are subscribed to a forum by force are told once each.
-/

namespace DiscussionBoard

namespace Register

inductive Event
  | enrol (course user : Id)
  | unenrol (course user : Id)
  | prohibit (user forum : Id)
deriving DecidableEq

def hear (register : Register) : Event → Register
  | .enrol course user => register.enrol course user
  | .unenrol course user => register.unenrol course user
  | .prohibit user forum => register.prohibit user forum

/-- A new register after a history. -/
def replay (history : List Event) : Register :=
  history.foldl hear {}

/-- Whether an event is about who is enrolled in a course. -/
def Event.isFor (course : Id) : Event → Bool
  | enrol place _ | unenrol place _ => place = course
  | prohibit _ _ => false

/-- Whether an event is about the enrolment of one user in a course. -/
def Event.concerns (course user : Id) (event : Event) : Bool :=
  event = .enrol course user || event = .unenrol course user

/-- Whether the latest event on a user in a course is an enrolment. -/
def IsEnrolled (history : List Event) (course user : Id) : Prop :=
  (history.filter (Event.concerns course user)).getLast? = some (.enrol course user)

/-- The place in a history where the present enrolment of a user in a course begins: an enrolment
after which there is no end, and between which and any earlier one there is an end. -/
structure BeginsAt (history : List Event) (course user : Id) (place : Nat) : Prop where
  enrols : history[place]? = some (.enrol course user)
  stays : ∀ other : Nat, history[other]? = some (.unenrol course user) → other < place
  first : ∀ earlier < place, history[earlier]? = some (.enrol course user) →
    ∃ between, earlier < between ∧ history[between]? = some (.unenrol course user)

variable {history : List Event} {event : Event} {course user : Id} {place : Nat}

theorem replay_concat (history : List Event) (event : Event) :
    replay (history ++ [event]) = (replay history).hear event :=
  List.foldl_append

/-! ### The latest event -/

theorem isEnrolled_concat_of_concerns (hconcerns : event.concerns course user = true) :
    IsEnrolled (history ++ [event]) course user ↔ event = .enrol course user := by
  simp [IsEnrolled, List.filter_append, hconcerns]

theorem isEnrolled_concat_of_not_concerns (hconcerns : event.concerns course user = false) :
    IsEnrolled (history ++ [event]) course user ↔ IsEnrolled history course user := by
  simp [IsEnrolled, List.filter_append, hconcerns]

/-- An event changes no more than whether the user it concerns is listed. -/
theorem mem_enrolled_hear_of_not_concerns (register : Register)
    (hconcerns : event.concerns course user = false) :
    user ∈ (register.hear event).enrolled course ↔ user ∈ register.enrolled course := by
  cases event with
  | prohibit other forum => rfl
  | enrol home other =>
      by_cases hhome : course = home
      · subst hhome
        have hother : user ≠ other := by
          rintro rfl
          simp [Event.concerns] at hconcerns
        rw [hear, enrolled_enrol_self]
        split <;> simp [hother]
      · rw [hear, enrolled_enrol_of_ne register other hhome]
  | unenrol home other =>
      by_cases hhome : course = home
      · subst hhome
        have hother : user ≠ other := by
          rintro rfl
          simp [Event.concerns] at hconcerns
        rw [hear, enrolled_unenrol_self]
        simp [hother]
      · rw [hear, enrolled_unenrol_of_ne register other hhome]

theorem mem_enrolled_hear_of_concerns (register : Register)
    (hconcerns : event.concerns course user = true) :
    user ∈ (register.hear event).enrolled course ↔ event = .enrol course user := by
  obtain rfl | rfl : event = .enrol course user ∨ event = .unenrol course user := by
    simpa [Event.concerns] using hconcerns
  · rw [hear, enrolled_enrol_self]
    split <;> simp [*]
  · rw [hear, enrolled_unenrol_self]
    simp

theorem mem_enrolled_replay_iff :
    user ∈ (replay history).enrolled course ↔ IsEnrolled history course user := by
  induction history using List.reverseRecOn with
  | nil => exact iff_of_false List.not_mem_nil nofun
  | append_singleton history event ih =>
      rw [replay_concat]
      cases hconcerns : event.concerns course user with
      | true =>
          rw [mem_enrolled_hear_of_concerns _ hconcerns, isEnrolled_concat_of_concerns hconcerns]
      | false =>
          rw [mem_enrolled_hear_of_not_concerns _ hconcerns, ih,
            isEnrolled_concat_of_not_concerns hconcerns]

theorem nodup_enrolled_replay (history : List Event) (course : Id) :
    ((replay history).enrolled course).Nodup := by
  induction history using List.reverseRecOn generalizing course with
  | nil => exact List.nodup_nil
  | append_singleton history event ih =>
      rw [replay_concat]
      cases event with
      | enrol home user => exact Subscription.nodup_enrolled_enrol ih home user course
      | unenrol home user => exact Subscription.nodup_enrolled_unenrol ih home user course
      | prohibit user forum => exact ih course

/-! ### Where an enrolment begins -/

theorem BeginsAt.lt_length (hbegins : BeginsAt history course user place) :
    place < history.length :=
  (List.getElem?_eq_some_iff.mp hbegins.enrols).1

/-- An event stands in a longer history where it stood, or at the end. -/
theorem getElem?_concat_iff {last : Event} :
    (history ++ [last])[place]? = some event ↔
      history[place]? = some event ∨ place = history.length ∧ last = event := by
  rcases Nat.lt_trichotomy place history.length with hlt | rfl | hgt
  · simp [List.getElem?_append_left hlt, Nat.ne_of_lt hlt]
  · simp
  · have hbeyond : (history ++ [last]).length ≤ place := by
      rw [List.length_append]
      exact hgt
    simp [List.getElem?_eq_none hbeyond, List.getElem?_eq_none (Nat.le_of_lt hgt),
      Nat.ne_of_gt hgt]

theorem beginsAt_concat_of_not_concerns (hconcerns : event.concerns course user = false) :
    BeginsAt (history ++ [event]) course user place ↔ BeginsAt history course user place := by
  have hsame : ∀ found, found = .enrol course user ∨ found = .unenrol course user →
      ∀ other : Nat, (history ++ [event])[other]? = some found ↔ history[other]? = some found := by
    intro found hfound other
    rw [getElem?_concat_iff, or_iff_left]
    rintro ⟨-, rfl⟩
    rcases hfound with rfl | rfl <;> simp [Event.concerns] at hconcerns
  have henrol := hsame _ (.inl rfl)
  have hunenrol := hsame _ (.inr rfl)
  constructor
  · rintro ⟨henrols, hstays, hfirst⟩
    exact ⟨(henrol place).mp henrols, by simpa only [hunenrol] using hstays,
      by simpa only [henrol, hunenrol] using hfirst⟩
  · rintro ⟨henrols, hstays, hfirst⟩
    exact ⟨(henrol place).mpr henrols, by simpa only [hunenrol] using hstays,
      by simpa only [henrol, hunenrol] using hfirst⟩

/-- The first of the enrolments after which there is no end begins the present one. -/
theorem exists_beginsAt (last : Nat) (henrols : history[last]? = some (.enrol course user))
    (hstays : ∀ later : Nat, last < later → history[later]? ≠ some (.unenrol course user)) :
    ∃ place, BeginsAt history course user place := by
  classical
  have hsome : ∃ place : Nat, history[place]? = some (.enrol course user) ∧
      ∀ later : Nat, place < later → history[later]? ≠ some (.unenrol course user) :=
    ⟨last, henrols, hstays⟩
  obtain ⟨hplace, hend⟩ := Nat.find_spec hsome
  -- Any earlier enrolment misses this property, so an end follows it.
  refine ⟨Nat.find hsome, hplace, fun other hother => ?_, fun earlier hearlier hearlierEnrols => ?_⟩
  · rcases Nat.lt_trichotomy other (Nat.find hsome) with hlt | heq | hgt
    · exact hlt
    · rw [heq, hplace] at hother
      cases hother
    · exact (hend other hgt hother).elim
  · by_contra hnone
    refine Nat.find_min hsome hearlier ⟨hearlierEnrols, fun later hlater hends => ?_⟩
    exact hnone ⟨later, hlater, hends⟩

theorem isEnrolled_iff_exists_beginsAt :
    IsEnrolled history course user ↔ ∃ place, BeginsAt history course user place := by
  induction history using List.reverseRecOn with
  | nil => exact iff_of_false nofun fun ⟨_, hbegins⟩ => nomatch hbegins.enrols
  | append_singleton history event ih =>
      cases hconcerns : event.concerns course user with
      | false =>
          rw [isEnrolled_concat_of_not_concerns hconcerns, ih]
          exact exists_congr fun _ => (beginsAt_concat_of_not_concerns hconcerns).symm
      | true =>
          rw [isEnrolled_concat_of_concerns hconcerns]
          constructor
          · rintro rfl
            -- The enrolment at the end is the latest event of all, so no end comes after it.
            refine exists_beginsAt history.length
              (getElem?_concat_iff.mpr (.inr ⟨rfl, rfl⟩)) fun later hlater hends => ?_
            rcases getElem?_concat_iff.mp hends with hold | ⟨-, hsame⟩
            · exact Nat.lt_asymm hlater (List.getElem?_eq_some_iff.mp hold).1
            · cases hsame
          · rintro ⟨place, hbegins⟩
            obtain rfl | rfl : event = .enrol course user ∨ event = .unenrol course user := by
              simpa [Event.concerns] using hconcerns
            · rfl
            · have hlast := hbegins.stays history.length (getElem?_concat_iff.mpr (.inr ⟨rfl, rfl⟩))
              have hlength := hbegins.lt_length
              rw [List.length_append, List.length_singleton] at hlength
              omega

/-- Enrolling a user again does not move the place. -/
theorem BeginsAt.of_concat_enrol (hbegins : BeginsAt (history ++ [.enrol course user]) course user place)
    (henrolled : IsEnrolled history course user) : BeginsAt history course user place := by
  obtain ⟨old, hold⟩ := isEnrolled_iff_exists_beginsAt.mp henrolled
  have hends : ∀ other : Nat, (history ++ [.enrol course user])[other]? = some (.unenrol course user) →
      history[other]? = some (.unenrol course user) := by
    intro other hother
    rcases getElem?_concat_iff.mp hother with h | ⟨-, h⟩
    · exact h
    · cases h
  have hkept : ∀ {other : Nat} {found : Event}, history[other]? = some found →
      (history ++ [.enrol course user])[other]? = some found :=
    fun h => getElem?_concat_iff.mpr (.inl h)
  rcases getElem?_concat_iff.mp hbegins.enrols with henrols | ⟨rfl, -⟩
  · refine ⟨henrols, fun other hother => hbegins.stays other (hkept hother), ?_⟩
    intro earlier hearlier hearlierEnrols
    obtain ⟨between, hafter, hends'⟩ := hbegins.first earlier hearlier (hkept hearlierEnrols)
    exact ⟨between, hafter, hends between hends'⟩
  · -- Had the present enrolment begun only now, the old one would have come to an end before.
    obtain ⟨between, hafter, hends'⟩ := hbegins.first old hold.lt_length (hkept hold.enrols)
    exact absurd (hold.stays between (hends between hends')) (Nat.lt_asymm hafter)

/-- The present enrolment of one user began before that of another. -/
def Precedes (history : List Event) (course : Id) (a b : Id) : Prop :=
  ∀ i j, BeginsAt history course a i → BeginsAt history course b j → i < j

theorem precedes_concat {a b : Id} (ha : event.concerns course a = false)
    (hb : event.concerns course b = false) :
    Precedes (history ++ [event]) course a b ↔ Precedes history course a b := by
  simp only [Precedes, beginsAt_concat_of_not_concerns ha, beginsAt_concat_of_not_concerns hb]

theorem precedes_concat_enrol {a b : Id} (ha : IsEnrolled history course a)
    (hb : IsEnrolled history course b) (hbefore : Precedes history course a b) :
    Precedes (history ++ [.enrol course user]) course a b := by
  have hkept : ∀ {other : Id} {place : Nat}, IsEnrolled history course other →
      BeginsAt (history ++ [.enrol course user]) course other place →
      BeginsAt history course other place := by
    intro other place hother hbegins
    by_cases hsame : other = user
    · subst hsame
      exact hbegins.of_concat_enrol hother
    · exact (beginsAt_concat_of_not_concerns (by simp [Event.concerns, Ne.symm hsame])).mp hbegins
  exact fun i j hi hj => hbefore i j (hkept ha hi) (hkept hb hj)

/-- Who is newly enrolled comes last. -/
theorem precedes_concat_new {a : Id} (ha : IsEnrolled history course a)
    (hnew : ¬IsEnrolled history course user) :
    Precedes (history ++ [.enrol course user]) course a user := by
  intro i j hi hj
  have hother : a ≠ user := by
    rintro rfl
    exact hnew ha
  rw [beginsAt_concat_of_not_concerns (by simp [Event.concerns, Ne.symm hother])] at hi
  rcases Nat.lt_trichotomy j history.length with hlt | rfl | hgt
  · -- An enrolment that began within the history was there all along.
    refine (hnew (isEnrolled_iff_exists_beginsAt.mpr (exists_beginsAt j ?_ ?_))).elim
    · exact (List.getElem?_append_left hlt).symm.trans hj.enrols
    · intro later hlater hends
      exact Nat.lt_asymm hlater (hj.stays later (getElem?_concat_iff.mpr (.inl hends)))
  · exact hi.lt_length
  · exact Nat.lt_trans hi.lt_length hgt

theorem pairwise_precedes (history : List Event) (course : Id) :
    ((replay history).enrolled course).Pairwise (Precedes history course) := by
  induction history using List.reverseRecOn with
  | nil => exact .nil
  | append_singleton history event ih =>
      have henrolled : ∀ user ∈ (replay history).enrolled course, IsEnrolled history course user :=
        fun user huser => mem_enrolled_replay_iff.mp huser
      -- An event that concerns nobody in this course leaves all places where they are.
      have hbystanders : (∀ user, event.concerns course user = false) →
          ((replay history).enrolled course).Pairwise (Precedes (history ++ [event]) course) :=
        fun hnobody => ih.imp fun h => (precedes_concat (hnobody _) (hnobody _)).mpr h
      rw [replay_concat]
      cases event with
      | prohibit user forum => exact hbystanders fun _ => by simp [Event.concerns]
      | enrol home user =>
          by_cases hhome : course = home
          · subst hhome
            have hold : ((replay history).enrolled course).Pairwise
                (Precedes (history ++ [.enrol course user]) course) :=
              ih.imp_of_mem fun ha hb h =>
                precedes_concat_enrol (henrolled _ ha) (henrolled _ hb) h
            rw [hear, enrolled_enrol_self]
            split
            · exact hold
            · rename_i hnew
              refine List.pairwise_append.mpr ⟨hold, List.pairwise_singleton _ _, ?_⟩
              intro a ha b hb
              obtain rfl := List.mem_singleton.mp hb
              exact precedes_concat_new (henrolled a ha) (mt mem_enrolled_replay_iff.mpr hnew)
          · rw [hear, enrolled_enrol_of_ne _ _ hhome]
            exact hbystanders fun _ => by simp [Event.concerns, Ne.symm hhome]
      | unenrol home user =>
          by_cases hhome : course = home
          · subst hhome
            rw [hear, enrolled_unenrol_self]
            refine (ih.filter _).imp_of_mem fun {a b} ha hb h => (precedes_concat ?_ ?_).mpr h
            · have hother : a ≠ user := of_decide_eq_true (List.mem_filter.mp ha).2
              simp [Event.concerns, Ne.symm hother]
            · have hother : b ≠ user := of_decide_eq_true (List.mem_filter.mp hb).2
              simp [Event.concerns, Ne.symm hother]
          · rw [hear, enrolled_unenrol_of_ne _ _ hhome]
            exact hbystanders fun _ => by simp [Event.concerns, Ne.symm hhome]

/-! ### Other courses, and prohibitions -/

theorem enrolled_hear_of_not_isFor (register : Register) (hevent : event.isFor course = false) :
    (register.hear event).enrolled course = register.enrolled course := by
  cases event with
  | prohibit user forum => rfl
  | enrol home user =>
      exact enrolled_enrol_of_ne register user (Ne.symm (by simpa [Event.isFor] using hevent))
  | unenrol home user =>
      exact enrolled_unenrol_of_ne register user (Ne.symm (by simpa [Event.isFor] using hevent))

/-- What becomes of a course depends on nothing but its list. -/
theorem enrolled_hear_congr {register other : Register}
    (hsame : register.enrolled course = other.enrolled course) (event : Event) :
    (register.hear event).enrolled course = (other.hear event).enrolled course := by
  cases hevent : event.isFor course with
  | false =>
      rw [enrolled_hear_of_not_isFor register hevent, enrolled_hear_of_not_isFor other hevent, hsame]
  | true =>
      cases event with
      | prohibit user forum => exact hsame
      | enrol home user =>
          obtain rfl : home = course := by simpa [Event.isFor] using hevent
          rw [hear, hear, enrolled_enrol_self, enrolled_enrol_self, hsame]
      | unenrol home user =>
          obtain rfl : home = course := by simpa [Event.isFor] using hevent
          rw [hear, hear, enrolled_unenrol_self, enrolled_unenrol_self, hsame]

theorem enrolled_replay_filter (history : List Event) (course : Id) :
    (replay (history.filter (Event.isFor course))).enrolled course =
      (replay history).enrolled course := by
  induction history using List.reverseRecOn with
  | nil => rfl
  | append_singleton history event ih =>
      rw [List.filter_append, replay_concat]
      cases hevent : event.isFor course with
      | true =>
          rw [List.filter_cons_of_pos hevent, List.filter_nil, replay_concat]
          exact enrolled_hear_congr ih event
      | false =>
          rw [List.filter_cons_of_neg (by simp [hevent]), List.filter_nil, List.append_nil, ih,
            enrolled_hear_of_not_isFor _ hevent]

theorem allows_replay_eq_false_iff {forum : Id} :
    (replay history).allows user forum = false ↔ .prohibit user forum ∈ history := by
  induction history using List.reverseRecOn with
  | nil => exact iff_of_false nofun nofun
  | append_singleton history event ih =>
      rw [replay_concat, List.mem_append, List.mem_singleton, ← ih]
      cases event with
      | enrol home other =>
          have hsame : ((replay history).hear (.enrol home other)).allows user forum =
              (replay history).allows user forum := by
            rw [hear, enrol]
            split <;> rfl
          rw [hsame]
          simp
      | unenrol home other => exact (or_iff_left nofun).symm
      | prohibit other place =>
          rw [hear, allows_prohibit]
          cases (replay history).allows user forum <;> simp

end Register

namespace Subscription

theorem run_allowedAmong (desk : Desk) (forum : Id) (users : List Id) :
    desk.run (allowedAmong forum users) =
      (.ok (users.filter fun user => desk.register.allows user forum), desk) := by
  induction users with
  | nil => rfl
  | cons user rest ih =>
      rw [allowedAmong, run_bind_of_ok (run_askRegister desk _), run_bind_of_ok ih, run_pure,
        List.filter_cons]
      rfl

theorem run_subscribers_of_forced (desk : Desk) {forum : Forum}
    (hmode : forum.subscriptionMode = .forced) :
    desk.run (subscribers forum) =
      (.ok (ascending ((desk.register.enrolled forum.courseId).filter
        fun user => desk.register.allows user forum.id)), desk) := by
  unfold subscribers
  rw [hmode]
  dsimp only
  rw [run_bind_of_ok (run_askRegister desk _), run_bind_of_ok (run_allowedAmong desk _ _), run_pure]
  rfl

end Subscription

open Subscription in
/-- What a register answers follows from what it heard. The users of a course are those whose latest
event in it is an enrolment, once each and in the order in which their present enrolments began, and
events of other courses make no difference. A user may be subscribed to a forum by force unless
exactly this was ever prohibited. So a forum with subscription by force has each subscriber once,
whatever else is stored or cached. -/
theorem register_replays_history (history : List Register.Event) :
    let register := Register.replay history
    (∀ course,
      (∀ user, user ∈ register.enrolled course ↔ Register.IsEnrolled history course user) ∧
      (register.enrolled course).Nodup ∧
      (∀ user ∈ register.enrolled course, ∃ place, Register.BeginsAt history course user place) ∧
      (register.enrolled course).Pairwise (Register.Precedes history course) ∧
      (Register.replay (history.filter (Register.Event.isFor course))).enrolled course =
        register.enrolled course) ∧
    (∀ user forum, register.allows user forum = false ↔ .prohibit user forum ∈ history) ∧
    ∀ (rows : Rows) (cache : Cache) (forum : Forum), forum.subscriptionMode = .forced →
      ∃ users, Desk.run ⟨rows, register, cache⟩ (subscribers forum) =
          (.ok users, ⟨rows, register, cache⟩) ∧ users.Nodup ∧
        ∀ user, user ∈ users ↔ Register.IsEnrolled history forum.courseId user ∧
          .prohibit user forum.id ∉ history := by
  intro register
  have hmem : ∀ course user,
      user ∈ register.enrolled course ↔ Register.IsEnrolled history course user :=
    fun _ _ => Register.mem_enrolled_replay_iff
  have hallows : ∀ user forum, register.allows user forum = false ↔ .prohibit user forum ∈ history :=
    fun _ _ => Register.allows_replay_eq_false_iff
  refine ⟨fun course => ⟨hmem course, Register.nodup_enrolled_replay history course, ?_,
    Register.pairwise_precedes history course, Register.enrolled_replay_filter history course⟩,
    hallows, fun rows cache forum hmode => ?_⟩
  · intro user huser
    exact Register.isEnrolled_iff_exists_beginsAt.mp ((hmem course user).mp huser)
  · refine ⟨_, run_subscribers_of_forced _ hmode, ?_, fun user => ?_⟩
    · have hnodup := (Register.nodup_enrolled_replay history forum.courseId).filter
        fun user => register.allows user forum.id
      exact (List.mergeSort_perm _ _).nodup_iff.mpr hnodup
    · rw [mem_ascending, List.mem_filter, hmem, ← hallows, Bool.not_eq_false]

end DiscussionBoard
