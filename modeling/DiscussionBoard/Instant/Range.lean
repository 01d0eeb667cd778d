import DiscussionBoard.Instant
import DiscussionBoard.Instant.Calendar

/-!
# The range of instants

Instants are reckoned in the years from -262143 to 262142.
-/

namespace DiscussionBoard.Instant

def firstYear : Int := -262143

def lastYear : Int := 262142

def startOfYear (year : Int) : Instant :=
  .ofSeconds (Date.toDays ⟨year, 1, 1⟩ * 86400)

def IsReckoned (instant : Instant) : Prop :=
  startOfYear firstYear ≤ instant ∧ instant < startOfYear (lastYear + 1)

instance (instant : Instant) : Decidable instant.IsReckoned :=
  inferInstanceAs (Decidable (_ ∧ _))

end DiscussionBoard.Instant
