/-!
# Numerals

Numbers written with a fixed count of digits, most significant first, in a base up to sixteen.
Reading what was written gives the number back.
-/

namespace DiscussionBoard.Numeral

/-- The value of one digit, of either letter case. -/
def digit? (c : Char) : Option Nat :=
  if '0' ≤ c ∧ c ≤ '9' then some (c.toNat - '0'.toNat)
  else if 'a' ≤ c ∧ c ≤ 'f' then some (c.toNat - 'a'.toNat + 10)
  else if 'A' ≤ c ∧ c ≤ 'F' then some (c.toNat - 'A'.toNat + 10)
  else none

/-- The lower-case digit of a value below sixteen. -/
def digit (value : Nat) : Char :=
  Nat.digitChar value

/-- Reads on from a number already read, refusing a character that is no digit of the base. -/
def readFrom? (base : Nat) : Nat → List Char → Option Nat
  | value, [] => some value
  | value, c :: rest =>
    match digit? c with
    | some d => if d < base then readFrom? base (value * base + d) rest else none
    | none => none

def read? (base : Nat) (digits : List Char) : Option Nat :=
  readFrom? base 0 digits

/-- The value of decimal digits after an optional plus. -/
def readUnsigned? (text : String) : Option Nat :=
  let digits := match text.toList with
    | '+' :: rest => rest
    | chars => chars
  if digits = [] then none else read? 10 digits

/-- The last `width` digits of a number. -/
def write (base : Nat) : Nat → Nat → List Char
  | 0, _ => []
  | width + 1, value => write base width (value / base) ++ [digit (value % base)]

theorem digit?_digit {value : Nat} (hvalue : value < 16) : digit? (digit value) = some value := by
  have hall : ∀ v : Fin 16, digit? (digit v.val) = some v.val := by decide
  exact hall ⟨value, hvalue⟩

theorem length_write (base width value : Nat) : (write base width value).length = width := by
  induction width generalizing value with
  | zero => rfl
  | succ width ih => simp [write, ih]

theorem readFrom?_append (base start : Nat) (front back : List Char) :
    readFrom? base start (front ++ back) =
      (readFrom? base start front).bind fun value => readFrom? base value back := by
  induction front generalizing start with
  | nil => rfl
  | cons c front ih =>
    simp only [List.cons_append, readFrom?]
    cases digit? c with
    | none => rfl
    | some d =>
      by_cases hd : d < base
      · simp [hd, ih]
      · simp [hd]

theorem readFrom?_write {base : Nat} (hbase : 0 < base) (hsixteen : base ≤ 16)
    (start width value : Nat) (hvalue : value < Nat.pow base width) :
    readFrom? base start (write base width value) = some (start * Nat.pow base width + value) := by
  induction width generalizing value with
  | zero =>
    have : value = 0 := by simpa using hvalue
    simp [write, readFrom?, this]
  | succ width ih =>
    have hquot : value / base < Nat.pow base width := by
      rw [Nat.div_lt_iff_lt_mul hbase]
      exact hvalue
    have hmod : value % base < base := Nat.mod_lt _ hbase
    rw [write, readFrom?_append, ih _ hquot]
    simp only [Option.bind_some, readFrom?, digit?_digit (Nat.lt_of_lt_of_le hmod hsixteen), hmod,
      if_true]
    congr 1
    rw [Nat.add_mul, Nat.mul_assoc, Nat.add_assoc, Nat.div_add_mod' value base]
    rfl

theorem read?_write {base : Nat} (hbase : 0 < base) (hsixteen : base ≤ 16) {width value : Nat}
    (hvalue : value < Nat.pow base width) : read? base (write base width value) = some value := by
  simp [read?, readFrom?_write hbase hsixteen 0 width value hvalue]

end DiscussionBoard.Numeral
