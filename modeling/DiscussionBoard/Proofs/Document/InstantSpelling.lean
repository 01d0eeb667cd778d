import DiscussionBoard.Instant.Relaxed
import DiscussionBoard.Proofs.Document.Numeral

/-!
# Spellings of an instant

An instant is spelled by a clock reading at an offset from universal time, with a fraction of any
length. What is read is the instant of the reading, cut to nanoseconds. An instant of the years 0 to
9999 outside every leap second is written as such a reading.
-/

namespace DiscussionBoard.Instant

/-! ### Clock readings -/

/-- The offset of a clock from universal time. -/
inductive Zone
  | universal
  | east (hours : Fin 24) (minutes : Fin 60)
  | west (hours : Fin 24) (minutes : Fin 60)

namespace Zone

def seconds : Zone → Int
  | universal => 0
  | east hours minutes => hours.val * 3600 + minutes.val * 60
  | west hours minutes => -(hours.val * 3600 + minutes.val * 60)

def distanceChars (hours : Fin 24) (minutes : Fin 60) : List Char :=
  Numeral.write 10 2 hours ++ ':' :: Numeral.write 10 2 minutes

inductive Spells : Zone → List Char → Prop
  | universal {mark : Char} (hmark : mark ∈ ['Z', 'z']) : Spells universal [mark]
  | east (hours : Fin 24) (minutes : Fin 60) :
    Spells (east hours minutes) ('+' :: distanceChars hours minutes)
  | west {minus : Char} (hminus : minus ∈ ['-', '\u2212']) (hours : Fin 24) (minutes : Fin 60) :
    Spells (west hours minutes) (minus :: distanceChars hours minutes)

end Zone

/-- A date and a time of day on a clock, where the fraction of the second has any number of decimal
places. -/
structure Reading where
  date : Date
  hour : Fin 24
  minute : Fin 60
  second : Fin 60
  places : Nat
  fraction : Fin (Nat.pow 10 places)
  zone : Zone
  valid : date.Valid
  year_nonneg : 0 ≤ date.year
  year_le : date.year ≤ 9999

/-- The nanoseconds of a fraction, cut down. -/
def nanosOf (places fraction : Nat) : Nat :=
  fraction * 1000000000 / Nat.pow 10 places

theorem nanosOf_lt {places : Nat} (fraction : Fin (Nat.pow 10 places)) :
    nanosOf places fraction < 1000000000 := by
  apply Nat.div_lt_of_lt_mul
  exact Nat.mul_lt_mul_of_pos_right fraction.isLt (by decide)

namespace Reading

variable (reading : Reading)

def instant : Instant where
  seconds := reading.date.toDays * 86400 + reading.hour.val * 3600 + reading.minute.val * 60 +
    reading.second.val - reading.zone.seconds
  nanos := nanosOf reading.places reading.fraction
  nanos_lt := by
    have hnanos := nanosOf_lt reading.fraction
    omega

/-- The fraction with its point, where there is one. -/
def fractionChars : List Char :=
  if reading.places = 0 then []
  else '.' :: Numeral.write 10 reading.places reading.fraction

def chars (between : Char) (ending : List Char) : List Char :=
  Numeral.write 10 4 reading.date.year.toNat ++ '-' :: (Numeral.write 10 2 reading.date.month ++
    '-' :: (Numeral.write 10 2 reading.date.day ++ between :: (Numeral.write 10 2 reading.hour ++
    ':' :: (Numeral.write 10 2 reading.minute ++ ':' :: (Numeral.write 10 2 reading.second ++
    (reading.fractionChars ++ ending))))))

end Reading

/-- The texts that spell an instant in the form of RFC 3339. -/
inductive Spells : Instant → List Char → Prop
  | reading (reading : Reading) {between : Char} (hbetween : between ∈ ['T', 't', ' '])
    {ending : List Char} (hending : reading.zone.Spells ending) :
    Spells reading.instant (reading.chars between ending)

theorem Spells.of_reading {instant : Instant} {chars : List Char} (reading : Reading) {between : Char}
    (hbetween : between ∈ ['T', 't', ' ']) {ending : List Char} (hending : reading.zone.Spells ending)
    (hinstant : reading.instant = instant) (hchars : reading.chars between ending = chars) :
    instant.Spells chars := by
  subst hinstant hchars
  exact .reading reading hbetween hending

/-! ### Reading -/

theorem distance?_distanceChars (hours : Fin 24) (minutes : Fin 60) :
    distance? (Zone.distanceChars hours minutes) = some (hours.val * 3600 + minutes.val * 60 : Int) := by
  have hhours : hours.val < Nat.pow 10 2 := Nat.lt_trans hours.isLt (by decide)
  have hminutes : minutes.val < Nat.pow 10 2 := Nat.lt_trans minutes.isLt (by decide)
  have hlast := field?_write_append hminutes []
  rw [List.append_nil] at hlast
  simp [distance?, Zone.distanceChars, field?_write_append hhours, mark?_cons, hlast]

theorem offset?_of_spells {zone : Zone} {ending : List Char} (hending : zone.Spells ending) :
    offset? ending = some zone.seconds := by
  cases hending with
  | universal hmark =>
      rcases List.mem_cons.mp hmark with rfl | hmark
      · rfl
      · obtain rfl := List.mem_singleton.mp hmark
        rfl
  | east hours minutes => exact distance?_distanceChars hours minutes
  | west hminus hours minutes =>
      have hdistance := congrArg (Option.map (- ·)) (distance?_distanceChars hours minutes)
      rcases List.mem_cons.mp hminus with rfl | hminus
      · exact hdistance
      · obtain rfl := List.mem_singleton.mp hminus
        exact hdistance

/-- An offset starts with a character that ends every fraction and starts none. -/
theorem Zone.Spells.head {zone : Zone} {ending : List Char} (hending : zone.Spells ending) :
    ∃ c rest, ending = c :: rest ∧ c.isDigit = false ∧ c ≠ '.' := by
  cases hending with
  | universal hmark =>
      refine ⟨_, _, rfl, ?_⟩
      revert hmark
      simp only [List.mem_cons, List.not_mem_nil, or_false]
      rintro (rfl | rfl) <;> decide
  | east => exact ⟨_, _, rfl, by decide⟩
  | west hminus =>
      refine ⟨_, _, rfl, ?_⟩
      revert hminus
      simp only [List.mem_cons, List.not_mem_nil, or_false]
      rintro (rfl | rfl) <;> decide

theorem read?_fraction (places : Nat) (fraction : Fin (Nat.pow 10 places)) :
    Numeral.read? 10 ((Numeral.write 10 places fraction ++ List.replicate 9 '0').take 9) =
      some (nanosOf places fraction) := by
  rw [Numeral.write_append_zeros (by decide), Nat.add_comm places 9, Numeral.take_write]
  exact Numeral.read?_write (by decide) (by decide) (nanosOf_lt fraction)

theorem fraction?_fractionChars (reading : Reading) {ending : List Char}
    (hending : reading.zone.Spells ending) :
    fraction? (reading.fractionChars ++ ending) =
      some (nanosOf reading.places reading.fraction, ending) := by
  obtain ⟨c, rest, rfl, hdigit, hpoint⟩ := hending.head
  unfold Reading.fractionChars
  split
  · rename_i hplaces
    have hzero : nanosOf reading.places reading.fraction = 0 := by
      have hbound : reading.fraction.val < Nat.pow 10 0 := by
        rw [← hplaces]
        exact reading.fraction.isLt
      have hfraction : reading.fraction.val = 0 := Nat.lt_one_iff.mp hbound
      rw [nanosOf, hfraction, Nat.zero_mul, Nat.zero_div]
    rw [hzero, List.nil_append]
    unfold fraction?
    split
    · rename_i hcons
      exact (hpoint (List.cons.inj hcons).1).elim
    · rfl
  · rename_i hplaces
    have hdigits : ∀ d ∈ Numeral.write 10 reading.places reading.fraction, d.isDigit = true :=
      fun d hd => Numeral.isDigit_of_mem_write hd
    have hne : Numeral.write 10 reading.places reading.fraction ≠ [] := by
      intro hnil
      have hlength := Numeral.length_write 10 reading.places reading.fraction
      rw [hnil] at hlength
      exact hplaces hlength.symm
    -- The offset ends the run of digits, whatever its form.
    have htake : (Numeral.write 10 reading.places reading.fraction ++ c :: rest).takeWhile
        Char.isDigit = Numeral.write 10 reading.places reading.fraction := by
      rw [List.takeWhile_append_of_pos hdigits, List.takeWhile_cons_of_neg (by simp [hdigit]),
        List.append_nil]
    have hdrop : (Numeral.write 10 reading.places reading.fraction ++ c :: rest).dropWhile
        Char.isDigit = c :: rest := by
      rw [List.dropWhile_append_of_pos hdigits, List.dropWhile_cons_of_neg (by simp [hdigit])]
    rw [List.cons_append, fraction?, htake, hdrop, if_neg hne, read?_fraction]
    rfl

theorem day_le_of_valid {date : Date} (hvalid : date.Valid) : date.day ≤ 31 := by
  obtain ⟨-, -, -, hday⟩ := hvalid
  have hall : ∀ length ∈ Calendar.monthLengths date.year, length ≤ 31 := by
    unfold Calendar.monthLengths
    split <;> decide
  refine Nat.le_trans hday ?_
  rw [List.getD_eq_getElem?_getD]
  cases hget : (Calendar.monthLengths date.year)[date.month - 1]? with
  | none => exact Nat.zero_le _
  | some length => exact hall length (List.mem_of_getElem? hget)

theorem ofClock?_reading (reading : Reading) :
    ofClock? reading.date reading.hour reading.minute reading.second
      (nanosOf reading.places reading.fraction) reading.zone.seconds = some reading.instant := by
  have hclock : reading.date.Valid ∧ reading.hour.val < 24 ∧ reading.minute.val < 60 ∧
      reading.second.val ≤ 60 ∧ nanosOf reading.places reading.fraction < 1000000000 :=
    ⟨reading.valid, reading.hour.isLt, reading.minute.isLt, Nat.le_of_lt reading.second.isLt,
      nanosOf_lt reading.fraction⟩
  have hsecond : min reading.second.val 59 = reading.second.val :=
    Nat.min_eq_left (Nat.le_of_lt_succ reading.second.isLt)
  have hregular : reading.second.val ≠ 60 := Nat.ne_of_lt reading.second.isLt
  rw [ofClock?, dif_pos hclock]
  simp only [hsecond, if_neg hregular, Nat.add_zero]
  rfl

theorem ofChars?_of_spells {instant : Instant} {chars : List Char} (hspells : instant.Spells chars) :
    ofChars? chars = some instant := by
  obtain ⟨reading, hbetween, hending⟩ := hspells
  obtain ⟨-, hmonth, -, -⟩ := reading.valid
  have hday := day_le_of_valid reading.valid
  have hyear : reading.date.year.toNat < Nat.pow 10 4 := by
    have hle := reading.year_le
    rw [show Nat.pow 10 4 = 10000 from rfl]
    omega
  have htwo : ∀ {value : Nat}, value < 100 → value < Nat.pow 10 2 := fun h => h
  have hhour := Nat.lt_trans reading.hour.isLt (by decide : 24 < 100)
  have hminute := Nat.lt_trans reading.minute.isLt (by decide : 60 < 100)
  have hsecond := Nat.lt_trans reading.second.isLt (by decide : 60 < 100)
  have hdate : Date.mk (reading.date.year.toNat : Int) reading.date.month reading.date.day =
      reading.date := by
    rw [Int.toNat_of_nonneg reading.year_nonneg]
  simp only [ofChars?, Reading.chars, Option.bind_eq_bind, Option.bind_some,
    field?_write_append hyear, field?_write_append (htwo (by omega : reading.date.month < 100)),
    field?_write_append (htwo (by omega : reading.date.day < 100)),
    field?_write_append (htwo hhour), field?_write_append (htwo hminute),
    field?_write_append (htwo hsecond), mark?_cons List.mem_cons_self, mark?_cons hbetween,
    fraction?_fractionChars reading hending, offset?_of_spells hending, hdate]
  exact ofClock?_reading reading

theorem ofRelaxedString?_of_spells {instant : Instant} {text : String}
    (hspells : instant.Spells text.toList) : ofRelaxedString? text = some instant := by
  have hread : ofString? text = some instant := ofChars?_of_spells hspells
  rw [ofRelaxedString?, hread, Option.some_or]

/-! ### Writing -/

def date (instant : Instant) : Date :=
  Date.ofDays (instant.seconds / 86400)

instance (instant : Instant) : Decidable instant.IsPlain :=
  inferInstanceAs (Decidable (instant.nanos < 1000000000))

/-- An instant of the years 0 to 9999 outside every leap second. -/
structure IsUsual (instant : Instant) : Prop where
  plain : instant.IsPlain
  start_le : startOfYear 0 ≤ instant
  lt_end : instant < startOfYear 10000

theorem daysBefore_mono {first last : Int} (hle : first ≤ last) :
    Calendar.daysBefore first ≤ Calendar.daysBefore last := by
  simp only [Calendar.daysBefore]
  omega

/-- The years of the written dates are those between the first days of January. -/
theorem startOfYear_le_iff {year : Int} {instant : Instant} :
    startOfYear year ≤ instant ↔ year ≤ instant.date.year := by
  have hfirst : Date.toDays ⟨year, 1, 1⟩ = Calendar.daysBefore year - Calendar.epoch := by
    simp [Date.toDays, Calendar.total]
  have hticks : startOfYear year ≤ instant ↔
      Calendar.daysBefore year ≤ instant.seconds / 86400 + Calendar.epoch := by
    have hnanos := instant.nanos_lt
    rw [le_iff_ticks_le, startOfYear, hfirst]
    simp only [ticks, ofSeconds]
    omega
  have hlow := Calendar.daysBefore_yearOf_le (instant.seconds / 86400 + Calendar.epoch)
  have hhigh := Calendar.lt_daysBefore_yearOf_add_one (instant.seconds / 86400 + Calendar.epoch)
  rw [hticks]
  constructor
  · intro hstart
    refine Int.not_lt.mp fun hnext => ?_
    exact absurd (Int.le_trans (daysBefore_mono hnext) hstart) (Int.not_le.mpr hhigh)
  · intro hyear
    exact Int.le_trans (daysBefore_mono hyear) hlow

/-- The fewest places, of none, three, six and nine, hold the nanoseconds. -/
theorem exists_fraction {nanos : Nat} (hnanos : nanos < 1000000000) :
    ∃ (places : Nat) (fraction : Fin (Nat.pow 10 places)),
      fractionChars nanos =
        (if places = 0 then [] else '.' :: Numeral.write 10 places fraction) ∧
      nanosOf places fraction = nanos := by
  unfold fractionChars
  split
  · rename_i hzero
    subst hzero
    exact ⟨0, ⟨0, by decide⟩, rfl, rfl⟩
  · split
    · have hfraction : nanos / 1000000 < 1000 := by omega
      have hback : nanos / 1000000 * 1000000000 / 1000 = nanos := by omega
      exact ⟨3, ⟨nanos / 1000000, hfraction⟩, rfl, hback⟩
    · split
      · have hfraction : nanos / 1000 < 1000000 := by omega
        have hback : nanos / 1000 * 1000000000 / 1000000 = nanos := by omega
        exact ⟨6, ⟨nanos / 1000, hfraction⟩, rfl, hback⟩
      · have hback : nanos * 1000000000 / 1000000000 = nanos := by omega
        exact ⟨9, ⟨nanos, hnanos⟩, rfl, hback⟩

theorem eq_of_parts {a b : Instant} (hseconds : a.seconds = b.seconds) (hnanos : a.nanos = b.nanos) :
    a = b := by
  cases a
  cases b
  cases hseconds
  cases hnanos
  rfl

theorem spells_toChars {instant : Instant} (husual : instant.IsUsual) :
    instant.Spells instant.toChars := by
  have hplain : instant.nanos < 1000000000 := husual.plain
  obtain ⟨places, fraction, hchars, hnanos⟩ := exists_fraction hplain
  have hnonneg : 0 ≤ instant.date.year := startOfYear_le_iff.mp husual.start_le
  have hle : instant.date.year ≤ 9999 := by
    have hend : ¬10000 ≤ instant.date.year := by
      rw [← startOfYear_le_iff, le_iff_ticks_le, Int.not_le]
      exact husual.lt_end
    omega
  have hday : (instant.seconds % 86400).toNat < 86400 := by omega
  let reading : Reading :=
    { date := instant.date
      hour := ⟨(instant.seconds % 86400).toNat / 3600, by omega⟩
      minute := ⟨(instant.seconds % 86400).toNat / 60 % 60, by omega⟩
      second := ⟨(instant.seconds % 86400).toNat % 60, by omega⟩
      places
      fraction
      zone := .universal
      valid := Date.valid_ofDays _
      year_nonneg := hnonneg
      year_le := hle }
  have hinstant : reading.instant = instant := by
    have hseconds : reading.instant.seconds = instant.seconds := by
      have hdays : reading.date.toDays = instant.seconds / 86400 := Date.toDays_ofDays _
      simp only [Reading.instant, hdays, reading, Zone.seconds]
      omega
    exact eq_of_parts hseconds hnanos
  have htext : reading.chars 'T' ['Z'] = instant.toChars := by
    have hyear : yearChars instant.date.year = Numeral.write 10 4 instant.date.year.toNat :=
      if_pos ⟨hnonneg, hle⟩
    have hleap : instant.nanos / 1000000000 = 0 := Nat.div_eq_of_lt hplain
    have hfraction : instant.nanos % 1000000000 = instant.nanos := Nat.mod_eq_of_lt hplain
    simp only [toChars, charsWith, hleap, hfraction, Nat.add_zero, hchars]
    rw [← Instant.date, hyear]
    rfl
  exact .of_reading reading (by decide) (.universal (by decide)) hinstant htext

end DiscussionBoard.Instant
