import DiscussionBoard.Table

/-!
# The register

Who is enrolled in which course, in the order of enrolment, and which users may not be subscribed
to which forums by force.
-/

namespace DiscussionBoard

structure Register where
  courses : Table Id (List Id) := .empty
  /-- Pairs of a user and a forum. -/
  prohibited : KeySet (Id × Id) := .empty
deriving DecidableEq

namespace Register

instance : Inhabited Register := ⟨{}⟩

def enrolled (register : Register) (course : Id) : List Id :=
  (register.courses.get? course).getD []

def allows (register : Register) (user forum : Id) : Bool :=
  !register.prohibited.contains (user, forum)

/-- Enrolling twice keeps the first place. -/
def enrol (register : Register) (course user : Id) : Register :=
  if user ∈ register.enrolled course then register
  else { register with
    courses := register.courses.insert course (register.enrolled course ++ [user]) }

def unenrol (register : Register) (course user : Id) : Register :=
  { register with
    courses := register.courses.insert course ((register.enrolled course).filter (· ≠ user)) }

def prohibit (register : Register) (user forum : Id) : Register :=
  { register with prohibited := register.prohibited.insert (user, forum) () }

theorem enrolled_enrol_self (register : Register) (course user : Id) :
    (register.enrol course user).enrolled course =
      if user ∈ register.enrolled course then register.enrolled course
      else register.enrolled course ++ [user] := by
  unfold enrol
  split <;> simp [enrolled]

theorem enrolled_enrol_of_ne (register : Register) {course other : Id} (user : Id)
    (hother : other ≠ course) :
    (register.enrol course user).enrolled other = register.enrolled other := by
  unfold enrol
  split
  · rfl
  · simp [enrolled, Table.get?_insert_of_ne _ _ hother]

theorem enrolled_unenrol_self (register : Register) (course user : Id) :
    (register.unenrol course user).enrolled course =
      (register.enrolled course).filter (· ≠ user) := by
  simp [unenrol, enrolled]

theorem enrolled_unenrol_of_ne (register : Register) {course other : Id} (user : Id)
    (hother : other ≠ course) :
    (register.unenrol course user).enrolled other = register.enrolled other := by
  simp [unenrol, enrolled, Table.get?_insert_of_ne _ _ hother]

theorem allows_prohibit (register : Register) (user forum otherUser otherForum : Id) :
    (register.prohibit user forum).allows otherUser otherForum =
      (register.allows otherUser otherForum &&
        !decide ((otherUser, otherForum) = (user, forum))) := by
  by_cases hpair : (otherUser, otherForum) = (user, forum)
  · simp [allows, prohibit, Table.contains, hpair]
  · simp [allows, prohibit, Table.contains, Table.get?_insert_of_ne _ _ hpair, hpair]

end Register

end DiscussionBoard
