/-!
# Identifiers

Users, courses, groups, forums and discussions are named by 128-bit ids, ordered as numbers.
-/

namespace DiscussionBoard

structure Id where
  bits : BitVec 128
deriving DecidableEq, Inhabited

namespace Id

def ofNat (number : Nat) : Id :=
  ⟨BitVec.ofNat 128 number⟩

def toNat (id : Id) : Nat :=
  id.bits.toNat

instance : LT Id := ⟨fun a b => a.toNat < b.toNat⟩

instance : LE Id := ⟨fun a b => a.toNat ≤ b.toNat⟩

instance (a b : Id) : Decidable (a < b) := inferInstanceAs (Decidable (a.toNat < b.toNat))

instance (a b : Id) : Decidable (a ≤ b) := inferInstanceAs (Decidable (a.toNat ≤ b.toNat))

theorem lt_iff_toNat_lt {a b : Id} : a < b ↔ a.toNat < b.toNat := Iff.rfl

theorem le_iff_toNat_le {a b : Id} : a ≤ b ↔ a.toNat ≤ b.toNat := Iff.rfl

theorem toNat_lt (id : Id) : id.toNat < 1 <<< 128 :=
  id.bits.isLt

theorem toNat_inj {a b : Id} : a.toNat = b.toNat ↔ a = b := by
  constructor
  · intro h
    cases a
    cases b
    exact congrArg Id.mk (BitVec.eq_of_toNat_eq h)
  · rintro rfl
    rfl

theorem toNat_ofNat {number : Nat} (hnumber : number < 1 <<< 128) :
    (ofNat number).toNat = number := by
  simpa [ofNat, toNat] using Nat.mod_eq_of_lt hnumber

@[simp]
theorem ofNat_toNat (id : Id) : ofNat id.toNat = id := by
  rw [← toNat_inj, toNat_ofNat id.toNat_lt]

end Id

end DiscussionBoard
