import DiscussionBoard.Id.Text
import DiscussionBoard.Proofs.Document.Numeral

/-!
# Spellings of an id

An id may be spelled with or without hyphens, in braces or after `urn:uuid:`, and in letters of
either case. The four forms cannot be confused, and each of them is read as the id.
-/

namespace DiscussionBoard.Id

def grouped (digits : List Char) : List Char :=
  digits.take 8 ++ hyphenate laterGroups (digits.drop 8)

/-- The texts that spell an id. -/
inductive Spells (id : Id) : List Char → Prop
  | plain {digits : List Char} (hdigits : digits.map Char.toLower = id.digits) : Spells id digits
  | hyphenated {digits : List Char} (hdigits : digits.map Char.toLower = id.digits) :
    Spells id (grouped digits)
  | braced {digits : List Char} (hdigits : digits.map Char.toLower = id.digits) :
    Spells id ('{' :: (grouped digits ++ ['}']))
  | urn {lead digits : List Char} (hlead : lead.map Char.toLower = urnLead)
    (hdigits : digits.map Char.toLower = id.digits) : Spells id (lead ++ grouped digits)

theorem spells_toChars (id : Id) : id.Spells id.toChars := by
  have hlower : ∀ c ∈ id.digits, c.toLower = c := by
    intro c hc
    obtain ⟨d, hd, rfl⟩ := Numeral.mem_write (by decide) hc
    have hall : ∀ d : Fin 16, (Numeral.digit d).toLower = Numeral.digit d := by decide
    exact hall ⟨d, hd⟩
  exact .hyphenated ((List.map_congr_left hlower).trans (List.map_id _))

variable {id : Id} {digits : List Char}

theorem length_of_letters (hdigits : digits.map Char.toLower = id.digits) : digits.length = 32 := by
  have hlength : (digits.map Char.toLower).length = id.digits.length := congrArg List.length hdigits
  rwa [List.length_map, Id.digits, Numeral.length_write] at hlength

theorem ofDigits?_of_letters (hdigits : digits.map Char.toLower = id.digits) :
    ofDigits? digits = some id := by
  calc ofDigits? digits
      = ofDigits? (digits.map Char.toLower) := by
        rw [ofDigits?, ofDigits?, List.length_map, Numeral.read?_map_toLower]
    _ = ofDigits? id.digits := by rw [hdigits]
    _ = some id := ofDigits?_digits id

theorem length_hyphenate (widths : List Nat) (digits : List Char)
    (hlength : digits.length = widths.foldr (· + ·) 0) :
    (hyphenate widths digits).length = digits.length + widths.length := by
  induction widths generalizing digits with
  | nil => rfl
  | cons width widths ih =>
      have hdrop : (digits.drop width).length = widths.foldr (· + ·) 0 := by simp [hlength]
      rw [hyphenate, List.length_cons, List.length_append, ih _ hdrop, List.length_take,
        List.length_drop, List.length_cons]
      rw [List.foldr_cons] at hlength
      omega

theorem length_grouped (hlength : digits.length = 32) : (grouped digits).length = 36 := by
  have hlater : (digits.drop 8).length = laterGroups.foldr (· + ·) 0 := by
    rw [List.length_drop, hlength]
    rfl
  rw [grouped, List.length_append, length_hyphenate _ _ hlater, hlater, List.length_take, hlength]
  rfl

theorem ofGroups?_grouped (hlength : digits.length = 32) :
    ofGroups? (grouped digits) = ofDigits? digits := by
  have hfirst : (digits.take 8).length = 8 := by simp [hlength]
  have hlater : (digits.drop 8).length = laterGroups.foldr (· + ·) 0 := by
    rw [List.length_drop, hlength]
    rfl
  have htake : (grouped digits).take 8 = digits.take 8 := List.take_left' hfirst
  have hdrop : (grouped digits).drop 8 = hyphenate laterGroups (digits.drop 8) :=
    List.drop_left' hfirst
  rw [ofGroups?, htake, hdrop, joinGroups?_hyphenate _ _ hlater, Option.bind_some,
    List.take_append_drop]

theorem ofGroups?_of_letters (hdigits : digits.map Char.toLower = id.digits) :
    ofGroups? (grouped digits) = some id := by
  rw [ofGroups?_grouped (length_of_letters hdigits), ofDigits?_of_letters hdigits]

/-- The grouped form starts with a digit, and so with neither a brace nor the `u` of `urn`. -/
theorem head_grouped (hdigits : digits.map Char.toLower = id.digits) :
    ∃ c rest, grouped digits = c :: rest ∧ c ≠ '{' ∧ c.toLower ≠ 'u' := by
  have hlength := length_of_letters hdigits
  obtain ⟨c, rest, rfl⟩ := List.exists_cons_of_length_pos (by omega : 0 < digits.length)
  have hmem : c.toLower ∈ id.digits := by
    rw [← hdigits]
    exact List.mem_cons_self
  obtain ⟨d, hd, hdigit⟩ := Numeral.mem_write (by decide) hmem
  have hall : ∀ d : Fin 16, Numeral.digit d ≠ '{' ∧ Numeral.digit d ≠ 'u' := by decide
  obtain ⟨hbrace, hletter⟩ := hall ⟨d, hd⟩
  refine ⟨c, _, rfl, ?_, ?_⟩
  · rintro rfl
    exact hbrace hdigit.symm
  · rw [hdigit]
    exact hletter

theorem ofChars?_hyphenated (hdigits : digits.map Char.toLower = id.digits) :
    ofChars? (grouped digits) = some id := by
  have hlength := length_grouped (length_of_letters hdigits)
  obtain ⟨c, rest, hhead, hbrace, hletter⟩ := head_grouped hdigits
  have hurn : urnLead.isPrefixOf ((grouped digits).map Char.toLower) = false := by
    have hlead : urnLead = 'u' :: "rn:uuid:".toList := rfl
    have hne : ('u' == c.toLower) = false := by simpa using Ne.symm hletter
    rw [hhead, List.map_cons, hlead, List.isPrefixOf_cons_cons, hne, Bool.false_and]
  have hunbraced : unbraced? (grouped digits) = none := by
    rw [hhead]
    unfold unbraced?
    split
    · rename_i hcons
      exact (hbrace (List.cons.inj hcons).1).elim
    · rfl
  rw [ofChars?, if_neg (by omega), if_neg (ne_true_of_eq_false hurn), hunbraced]
  exact ofGroups?_of_letters hdigits

theorem ofChars?_braced (hdigits : digits.map Char.toLower = id.digits) :
    ofChars? ('{' :: (grouped digits ++ ['}'])) = some id := by
  have hlength : ('{' :: (grouped digits ++ ['}'])).length = 38 := by
    simp [length_grouped (length_of_letters hdigits)]
  have hinner : unbraced? ('{' :: (grouped digits ++ ['}'])) = some (grouped digits) := by
    rw [unbraced?, if_pos List.getLast?_concat, List.dropLast_concat]
  have hurn : urnLead.isPrefixOf (('{' :: (grouped digits ++ ['}'])).map Char.toLower) = false := rfl
  rw [ofChars?, if_neg (by omega), if_neg (ne_true_of_eq_false hurn), hinner]
  exact ofGroups?_of_letters hdigits

theorem ofChars?_urn {lead : List Char} (hlead : lead.map Char.toLower = urnLead)
    (hdigits : digits.map Char.toLower = id.digits) :
    ofChars? (lead ++ grouped digits) = some id := by
  have hwidth : lead.length = urnLead.length := by rw [← hlead, List.length_map]
  have hlength : (lead ++ grouped digits).length = 45 := by
    rw [List.length_append, length_grouped (length_of_letters hdigits), hwidth]
    rfl
  have hurn : urnLead.isPrefixOf ((lead ++ grouped digits).map Char.toLower) = true := by
    rw [List.map_append, hlead, List.isPrefixOf_iff_prefix]
    exact List.prefix_append _ _
  rw [ofChars?, if_neg (by omega), if_pos hurn, List.drop_left' hwidth]
  exact ofGroups?_of_letters hdigits

theorem ofChars?_of_spells {chars : List Char} (hspells : id.Spells chars) :
    ofChars? chars = some id := by
  cases hspells with
  | plain hdigits =>
      rw [ofChars?, if_pos (length_of_letters hdigits)]
      exact ofDigits?_of_letters hdigits
  | hyphenated hdigits => exact ofChars?_hyphenated hdigits
  | braced hdigits => exact ofChars?_braced hdigits
  | urn hlead hdigits => exact ofChars?_urn hlead hdigits

end DiscussionBoard.Id
