/-!
# Calendar

Days of the proleptic Gregorian calendar, counted from 1 January 1970. The year of a day is found
by an estimate that misses by at most one; the month by walking the lengths of the months.
-/

namespace DiscussionBoard

structure Date where
  year : Int
  month : Nat
  day : Nat
deriving DecidableEq

namespace Calendar

def isLeap (year : Int) : Bool :=
  year % 4 = 0 ∧ (year % 100 ≠ 0 ∨ year % 400 = 0)

def monthLengths (year : Int) : List Nat :=
  [31, if isLeap year then 29 else 28, 31, 30, 31, 30, 31, 31, 30, 31, 30, 31]

/-- The length of consecutive parts together. -/
def total : List Nat → Nat
  | [] => 0
  | length :: rest => length + total rest

/-- The days from 1 January of the year 1 to 1 January of `year`. -/
def daysBefore (year : Int) : Int :=
  365 * (year - 1) + (year - 1) / 4 - (year - 1) / 100 + (year - 1) / 400

/-- The year that holds a day counted from 1 January of the year 1. -/
def yearOf (day : Int) : Int :=
  let estimate := day * 400 / 146097 + 1
  if day < daysBefore estimate then estimate - 1
  else if daysBefore (estimate + 1) ≤ day then estimate + 1
  else estimate

/-- Walks along parts of the given lengths to the part that holds a position, and gives the part's
index and the position in it. -/
def locate : List Nat → Nat → Nat × Nat
  | [], position => (0, position)
  | length :: rest, position =>
    if position < length then (0, position)
    else
      let (index, offset) := locate rest (position - length)
      (index + 1, offset)

/-- 1 January 1970 counted from 1 January of the year 1. -/
def epoch : Int := 719162

end Calendar

namespace Date

open Calendar

def Valid (date : Date) : Prop :=
  1 ≤ date.month ∧ date.month ≤ 12 ∧ 1 ≤ date.day ∧
    date.day ≤ (monthLengths date.year).getD (date.month - 1) 0

instance (date : Date) : Decidable date.Valid := by
  unfold Valid
  infer_instance

/-- The days from 1 January 1970. -/
def toDays (date : Date) : Int :=
  daysBefore date.year - epoch + total ((monthLengths date.year).take (date.month - 1)) +
    (date.day - 1 : Nat)

def ofDays (days : Int) : Date :=
  let year := yearOf (days + epoch)
  let (month, day) := locate (monthLengths year) (days + epoch - daysBefore year).toNat
  ⟨year, month + 1, day + 1⟩

end Date

namespace Calendar

theorem daysBefore_add_one (year : Int) :
    daysBefore (year + 1) = daysBefore year + 365 + (if isLeap year then 1 else 0) := by
  simp only [daysBefore, isLeap, decide_eq_true_eq]
  split <;> omega

theorem total_monthLengths (year : Int) :
    (total (monthLengths year) : Int) = daysBefore (year + 1) - daysBefore year := by
  rw [daysBefore_add_one]
  simp only [monthLengths, total]
  split <;> omega

theorem daysBefore_yearOf_le (day : Int) : daysBefore (yearOf day) ≤ day := by
  simp only [yearOf]
  split
  · simp only [daysBefore] at *
    omega
  · split
    · assumption
    · omega

theorem lt_daysBefore_yearOf_add_one (day : Int) : day < daysBefore (yearOf day + 1) := by
  simp only [yearOf]
  split
  · rwa [Int.sub_add_cancel]
  · split
    · simp only [daysBefore] at *
      omega
    · omega

theorem locate_spec (lengths : List Nat) {position : Nat} (hposition : position < total lengths) :
    (locate lengths position).1 < lengths.length ∧
      (locate lengths position).2 < lengths.getD (locate lengths position).1 0 ∧
      total (lengths.take (locate lengths position).1) + (locate lengths position).2 =
        position := by
  induction lengths generalizing position with
  | nil => simp [total] at hposition
  | cons length rest ih =>
    by_cases hfirst : position < length
    · simp [locate, total, hfirst]
    · have hrest : position - length < total rest := by
        simp only [total] at hposition
        omega
      obtain ⟨hindex, hoffset, hsum⟩ := ih hrest
      simp only [locate, hfirst, if_false, List.length_cons, List.take_succ_cons, total]
      refine ⟨by omega, by simpa using hoffset, by omega⟩

end Calendar

namespace Date

open Calendar

theorem toDays_ofDays (days : Int) : (ofDays days).toDays = days := by
  have hlow := daysBefore_yearOf_le (days + epoch)
  have hhigh := lt_daysBefore_yearOf_add_one (days + epoch)
  have hsum := total_monthLengths (yearOf (days + epoch))
  have hinside : (days + epoch - daysBefore (yearOf (days + epoch))).toNat <
      total (monthLengths (yearOf (days + epoch))) := by omega
  obtain ⟨_, _, hposition⟩ := locate_spec (monthLengths (yearOf (days + epoch))) hinside
  simp only [toDays, ofDays, Nat.add_sub_cancel]
  omega

theorem valid_ofDays (days : Int) : (ofDays days).Valid := by
  have hlow := daysBefore_yearOf_le (days + epoch)
  have hhigh := lt_daysBefore_yearOf_add_one (days + epoch)
  have hsum := total_monthLengths (yearOf (days + epoch))
  have hinside : (days + epoch - daysBefore (yearOf (days + epoch))).toNat <
      total (monthLengths (yearOf (days + epoch))) := by omega
  obtain ⟨hindex, hoffset, _⟩ := locate_spec (monthLengths (yearOf (days + epoch))) hinside
  simp only [monthLengths, List.length_cons, List.length_nil] at hindex
  refine ⟨?_, ?_, ?_, ?_⟩
  · simp [ofDays]
  · simp only [ofDays, monthLengths]
    omega
  · simp [ofDays]
  · simp only [ofDays, Nat.add_sub_cancel]
    omega

end Date

end DiscussionBoard
