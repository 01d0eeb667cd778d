import DiscussionBoard.Text.Numeral

/-!
# Numerals among other characters

Digits count the same in either letter case, a numeral is a run of digits, and zeros behind it or a
cut through it multiply or divide its number by a power of the base.
-/

namespace DiscussionBoard.Numeral

theorem digit?_toLower (c : Char) : digit? c.toLower = digit? c := by
  by_cases hupper : 65 ≤ c.toNat ∧ c.toNat ≤ 90
  · have hall : ∀ place : Fin 26,
        digit? (Char.ofNat (65 + place)).toLower = digit? (Char.ofNat (65 + place)) := by decide
    have hplace : 65 + (c.toNat - 65) = c.toNat := by omega
    have hletter := hall ⟨c.toNat - 65, by omega⟩
    rwa [hplace, Char.ofNat_toNat] at hletter
  · have hsame : c.toLower = c := by
      unfold Char.toLower
      exact dif_neg hupper
    rw [hsame]

theorem readFrom?_map_toLower (base start : Nat) (chars : List Char) :
    readFrom? base start (chars.map Char.toLower) = readFrom? base start chars := by
  induction chars generalizing start with
  | nil => rfl
  | cons c rest ih =>
      rw [List.map_cons, readFrom?, readFrom?, digit?_toLower]
      simp only [ih]

theorem read?_map_toLower (base : Nat) (chars : List Char) :
    read? base (chars.map Char.toLower) = read? base chars :=
  readFrom?_map_toLower base 0 chars

theorem mem_write {base : Nat} (hbase : 0 < base) {width value : Nat} {c : Char}
    (hc : c ∈ write base width value) : ∃ d < base, c = digit d := by
  induction width generalizing value with
  | zero => cases hc
  | succ width ih =>
      rcases List.mem_append.mp hc with hfront | hlast
      · exact ih hfront
      · exact ⟨value % base, Nat.mod_lt _ hbase, List.mem_singleton.mp hlast⟩

theorem isDigit_of_mem_write {width value : Nat} {c : Char} (hc : c ∈ write 10 width value) :
    c.isDigit = true := by
  obtain ⟨d, hd, rfl⟩ := mem_write (by decide) hc
  have hall : ∀ d : Fin 10, (digit d).isDigit = true := by decide
  exact hall ⟨d, hd⟩

/-- The first characters of a numeral are the numeral of a quotient. -/
theorem take_write (base front back value : Nat) :
    (write base (front + back) value).take front =
      write base front (value / Nat.pow base back) := by
  induction back generalizing value with
  | zero =>
      have hone : value / Nat.pow base 0 = value := Nat.div_one value
      rw [hone]
      exact List.take_of_length_le (Nat.le_of_eq (length_write base front value))
  | succ back ih =>
      have hlength : front ≤ (write base (front + back) (value / base)).length := by
        rw [length_write]
        exact Nat.le_add_right front back
      have hpower : base * Nat.pow base back = Nat.pow base (back + 1) := Nat.mul_comm _ _
      calc (write base (front + (back + 1)) value).take front
          = (write base (front + back) (value / base)).take front :=
            List.take_append_of_le_length hlength
        _ = write base front (value / base / Nat.pow base back) := ih _
        _ = write base front (value / Nat.pow base (back + 1)) := by
            rw [Nat.div_div_eq_div_mul, hpower]

theorem write_append_zeros {base : Nat} (hbase : 0 < base) (width value zeros : Nat) :
    write base width value ++ List.replicate zeros '0' =
      write base (width + zeros) (value * Nat.pow base zeros) := by
  induction zeros with
  | zero =>
      have hone : value * Nat.pow base 0 = value := Nat.mul_one value
      rw [hone]
      exact List.append_nil _
  | succ zeros ih =>
      have hpower : value * Nat.pow base (zeros + 1) = value * Nat.pow base zeros * base :=
        (Nat.mul_assoc _ _ _).symm
      have hquotient : value * Nat.pow base (zeros + 1) / base = value * Nat.pow base zeros := by
        rw [hpower, Nat.mul_div_cancel _ hbase]
      have hlast : value * Nat.pow base (zeros + 1) % base = 0 := by
        rw [hpower, Nat.mul_mod_left]
      calc write base width value ++ List.replicate (zeros + 1) '0'
          = write base width value ++ List.replicate zeros '0' ++ ['0'] := by
            rw [List.replicate_succ', List.append_assoc]
        _ = write base (width + zeros) (value * Nat.pow base zeros) ++ ['0'] := by rw [ih]
        _ = write base (width + (zeros + 1)) (value * Nat.pow base (zeros + 1)) := by
            rw [← Nat.add_assoc, write, hquotient, hlast]
            rfl

end DiscussionBoard.Numeral
