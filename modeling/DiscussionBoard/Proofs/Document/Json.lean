import DiscussionBoard.Document.Json

/-!
# JSON reads back what it writes

Tables of texts, switches and nulls are read back from the text that they are written as. Each step
of the reader takes what one step of the writer gave and leaves the characters after it.
-/

namespace DiscussionBoard.Document

def IsScalar : Document → Prop
  | null | bool _ | text _ => True
  | int _ | float _ | list _ | table _ => False

/-- A scalar, or a table of scalars with different names. -/
def IsFlat : Document → Prop
  | table fields => (fields.map (·.1)).Nodup ∧ ∀ field ∈ fields, field.2.IsScalar
  | document => document.IsScalar

theorem assign_of_fresh {name : String} (value : Document) {fields : List (String × Document)}
    (hname : name ∉ fields.map (·.1)) : assign name value fields = fields ++ [(name, value)] := by
  induction fields with
  | nil => rfl
  | cons field rest ih =>
      rw [List.map_cons, List.mem_cons, not_or] at hname
      rw [assign, if_neg (Ne.symm hname.1), ih hname.2]
      rfl

namespace Json

/-! ### Strings -/

theorem escaped?_write {c : Char} (hc : c.toNat < 0x20) (rest : List Char) :
    escaped? (Numeral.write 16 4 c.toNat ++ rest) = some (c, rest) := by
  have hlength := Numeral.length_write 16 4 c.toNat
  have hunit : unit? (Numeral.write 16 4 c.toNat ++ rest) = some (c.toNat, rest) := by
    have hbound : c.toNat < Nat.pow 16 4 := Nat.lt_trans hc (by decide)
    rw [unit?, if_pos (by simp [hlength]), List.take_left' hlength, List.drop_left' hlength,
      Numeral.read?_write (by decide) (by decide) hbound]
    rfl
  have hhigh : ¬(0xD800 ≤ c.toNat ∧ c.toNat < 0xDC00) := by omega
  have hlow : ¬(0xDC00 ≤ c.toNat ∧ c.toNat < 0xE000) := by omega
  rw [escaped?, hunit]
  simp only [Option.bind_eq_bind, Option.bind_some, if_neg hhigh, if_neg hlow, Char.ofNat_toNat]

/-- One step of the reader takes what was written for one character. -/
theorem string?_escape (c : Char) (fuel : Nat) (done rest : List Char) :
    string? (fuel + 1) done (escape c ++ rest) = string? fuel (c :: done) rest := by
  by_cases hnamed : c = '"' ∨ c = '\\' ∨ c = '\n' ∨ c = '\r' ∨ c = '\t'
  · rcases hnamed with rfl | rfl | rfl | rfl | rfl <;> rfl
  · obtain ⟨hquote, hslash, hline, hreturn, htab⟩ :
        c ≠ '"' ∧ c ≠ '\\' ∧ c ≠ '\n' ∧ c ≠ '\r' ∧ c ≠ '\t' := by simpa using hnamed
    rw [escape, if_neg hquote, if_neg hslash, if_neg hline, if_neg hreturn, if_neg htab]
    by_cases hcontrol : c.toNat < 0x20
    · rw [if_pos hcontrol, List.cons_append, List.cons_append, string?, escaped?_write hcontrol]
      rfl
    · have hplain : ¬(c = '\\' ∨ c.toNat < 0x20) := not_or.mpr ⟨hslash, hcontrol⟩
      rw [if_neg hcontrol, List.singleton_append, string?]
      · exact if_neg hplain
      · exact hquote
      · exact fun _ h => absurd h hslash
      · exact fun _ _ h => absurd h hslash

theorem string?_quoted (text : List Char) {fuel : Nat} (hfuel : text.length < fuel)
    (done rest : List Char) :
    string? fuel done (text.flatMap escape ++ '"' :: rest) =
      some (String.ofList (done.reverse ++ text), rest) := by
  induction text generalizing fuel done with
  | nil =>
      obtain ⟨fuel, rfl⟩ := Nat.exists_eq_add_one.mpr hfuel
      rw [List.append_nil]
      rfl
  | cons c text ih =>
      obtain ⟨fuel, rfl⟩ := Nat.exists_eq_add_one.mpr (Nat.lt_of_le_of_lt (Nat.zero_le _) hfuel)
      have hspace : text.length < fuel := Nat.lt_of_succ_lt_succ hfuel
      calc string? (fuel + 1) done ((c :: text).flatMap escape ++ '"' :: rest)
          = string? (fuel + 1) done (escape c ++ (text.flatMap escape ++ '"' :: rest)) := by
            rw [List.flatMap_cons, List.append_assoc]
        _ = string? fuel (c :: done) (text.flatMap escape ++ '"' :: rest) :=
            string?_escape c fuel done _
        _ = some (String.ofList ((c :: done).reverse ++ text), rest) := ih hspace _
        _ = some (String.ofList (done.reverse ++ c :: text), rest) := by
            rw [List.reverse_cons, List.append_assoc]
            rfl

theorem toList_quote (text : String) :
    (quote text).toList = '"' :: (text.toList.flatMap escape ++ ['"']) := by
  rw [quote, String.toList_ofList]

theorem length_escape_pos (c : Char) : 0 < (escape c).length := by
  unfold escape
  repeat' split
  all_goals exact Nat.zero_lt_succ _

theorem length_le_escape (text : List Char) : text.length ≤ (text.flatMap escape).length := by
  induction text with
  | nil => exact Nat.le_refl 0
  | cons c text ih =>
      have hone := length_escape_pos c
      rw [List.flatMap_cons, List.length_append, List.length_cons]
      omega

/-! ### Values -/

theorem value?_scalar {document : Document} (hscalar : document.IsScalar) (depth : Nat) {fuel : Nat}
    (hfuel : (write document).length < fuel) (rest : List Char) :
    value? depth fuel ((write document).toList ++ rest) = some (document, rest) := by
  obtain ⟨fuel, rfl⟩ := Nat.exists_eq_add_one.mpr (Nat.lt_of_le_of_lt (Nat.zero_le _) hfuel)
  cases document with
  | null => rfl
  | bool value => cases value <;> rfl
  | text value =>
      have hlength : (quote value).length = (value.toList.flatMap escape).length + 2 := by
        rw [← String.length_toList, toList_quote]
        simp
      have hspace : value.toList.length < fuel := by
        have hle := length_le_escape value.toList
        rw [write, hlength] at hfuel
        omega
      have hread : string? fuel [] (value.toList.flatMap escape ++ '"' :: rest) =
          some (value, rest) := by
        rw [string?_quoted value.toList hspace, List.reverse_nil, List.nil_append,
          String.ofList_toList]
      rw [write, toList_quote, List.cons_append, List.append_assoc, List.singleton_append]
      exact congrArg (Option.map fun found => (Document.text found.1, found.2)) hread
  | int | float | list | table => exact hscalar.elim

/-! ### Tables -/

/-- What is written for one field of a table. -/
def member (field : String × Document) : List Char :=
  (quote field.1).toList ++ ':' :: (write field.2).toList

theorem toList_write_table (fields : List (String × Document)) :
    (write (.table fields)).toList =
      '\x7b' :: (List.intercalate [','] (fields.map member) ++ ['\x7d']) := by
  have hfields : (writeFields fields).map String.toList = fields.map member := by
    induction fields with
    | nil => rfl
    | cons field rest ih =>
        rw [writeFields, List.map_cons, ih, List.map_cons, member, String.toList_append,
          String.toList_append, List.append_assoc]
        rfl
  rw [write, String.toList_append, String.toList_append, String.toList_intercalate, hfields]
  rfl

variable {field : String × Document} {fields : List (String × Document)}

theorem member_eq (field : String × Document) (rest : List Char) :
    member field ++ rest =
      '"' :: (field.1.toList.flatMap escape ++ '"' :: ':' :: ((write field.2).toList ++ rest)) := by
  rw [member, toList_quote]
  simp

theorem length_member (field : String × Document) :
    field.1.toList.length + (write field.2).length + 3 ≤ (member field).length := by
  have hle := length_le_escape field.1.toList
  have hlength := congrArg List.length (member_eq field [])
  simp only [List.append_nil, List.length_cons, List.length_append, String.length_toList] at hlength
  omega

/-- One step of the reader takes what was written for one field. -/
theorem members?_member (hscalar : field.2.IsScalar) (depth : Nat) {fuel : Nat}
    (hfuel : (member field).length ≤ fuel) (done : List (String × Document)) (rest : List Char) :
    members? depth (fuel + 1) done (member field ++ rest) =
      match skipBlanks rest with
      | ',' :: rest => members? depth fuel (assign field.1 field.2 done) rest
      | '\x7d' :: rest => some (.table (assign field.1 field.2 done), rest)
      | _ => none := by
  have hspace := length_member field
  have hname : string? fuel [] (field.1.toList.flatMap escape ++
      '"' :: ':' :: ((write field.2).toList ++ rest)) =
        some (field.1, ':' :: ((write field.2).toList ++ rest)) := by
    rw [string?_quoted field.1.toList (by omega), List.reverse_nil, List.nil_append,
      String.ofList_toList]
  have hvalue : value? depth fuel ((write field.2).toList ++ rest) = some (field.2, rest) :=
    value?_scalar hscalar depth (by omega) rest
  rw [member_eq, members?]
  show (string? fuel [] _ >>= _) = _
  rw [hname]
  show (value? depth fuel _ >>= _) = _
  rw [hvalue]
  rfl

theorem members?_fields (hscalar : ∀ field ∈ fields, field.2.IsScalar) (depth fuel : Nat)
    (done : List (String × Document)) (hnodup : ((done ++ fields).map (·.1)).Nodup)
    (hne : fields ≠ [])
    (hfuel : (List.intercalate [','] (fields.map member)).length < fuel) (rest : List Char) :
    members? depth fuel done (List.intercalate [','] (fields.map member) ++ '\x7d' :: rest) =
      some (.table (done ++ fields), rest) := by
  induction fields generalizing done fuel with
  | nil => exact (hne rfl).elim
  | cons field later ih =>
      obtain ⟨fuel, rfl⟩ := Nat.exists_eq_add_one.mpr (Nat.lt_of_le_of_lt (Nat.zero_le _) hfuel)
      -- The name was not read before, so the field is added at the end.
      have hfresh : field.1 ∉ done.map (·.1) := by
        rw [List.map_append, List.map_cons] at hnodup
        exact fun hmem => (List.nodup_append.mp hnodup).2.2 _ hmem _ List.mem_cons_self rfl
      have hassign := assign_of_fresh field.2 hfresh
      have hfirst := hscalar field List.mem_cons_self
      cases later with
      | nil =>
          rw [List.map_singleton, List.intercalate_singleton] at hfuel ⊢
          rw [members?_member hfirst depth (by omega), hassign]
          rfl
      | cons next later =>
          have hlater : List.intercalate [','] ((field :: next :: later).map member) =
              member field ++ ',' :: List.intercalate [','] ((next :: later).map member) := by
            simp [List.intercalate_cons_cons]
          rw [hlater] at hfuel ⊢
          simp only [List.length_append, List.length_cons] at hfuel
          rw [List.append_assoc, List.cons_append, members?_member hfirst depth (by omega), hassign]
          have hrest := ih (fun other hmem => hscalar other (List.mem_cons_of_mem _ hmem)) fuel
            (done ++ [field]) (by simpa using hnodup) (List.cons_ne_nil _ _) (by omega)
          rw [List.append_assoc] at hrest
          exact hrest

theorem value?_table (hscalar : ∀ field ∈ fields, field.2.IsScalar)
    (hnodup : (fields.map (·.1)).Nodup) (depth : Nat) {fuel : Nat}
    (hfuel : (write (.table fields)).length < fuel) (rest : List Char) :
    value? (depth + 1) fuel ((write (.table fields)).toList ++ rest) =
      some (.table fields, rest) := by
  obtain ⟨fuel, rfl⟩ := Nat.exists_eq_add_one.mpr (Nat.lt_of_le_of_lt (Nat.zero_le _) hfuel)
  rw [← String.length_toList, toList_write_table, List.length_cons, List.length_append] at hfuel
  rw [toList_write_table, List.cons_append, List.append_assoc]
  cases fields with
  | nil => rfl
  | cons field later =>
      have hread := members?_fields hscalar depth fuel [] hnodup (List.cons_ne_nil _ _)
        (by omega) rest
      -- The first member starts with a quote, so the table is not taken for an empty one.
      have hquote : ∃ chars, List.intercalate [','] ((field :: later).map member) ++ '\x7d' :: rest =
          '"' :: chars := by
        cases later with
        | nil => exact ⟨_, by rw [List.map_singleton, List.intercalate_singleton, member_eq]⟩
        | cons next later =>
            exact ⟨_, by
              rw [List.map_cons, List.map_cons, List.intercalate_cons_cons, List.append_assoc,
                List.append_assoc, member_eq]⟩
      obtain ⟨chars, hchars⟩ := hquote
      rw [hchars] at hread
      rw [List.singleton_append, hchars]
      exact hread

theorem read?_write {document : Document} (hflat : document.IsFlat) :
    read? (write document) = some document := by
  have hvalue : ∀ fuel, (write document).length < fuel →
      value? maxDepth fuel (write document).toList = some (document, []) := by
    intro fuel hfuel
    rw [← List.append_nil (write document).toList]
    cases document with
    | table fields => exact value?_table hflat.2 hflat.1 126 hfuel []
    | null | bool | text | int | float | list =>
        refine value?_scalar ?_ maxDepth hfuel []
        exact hflat
  have hspace : (write document).length < 2 * (write document).toList.length + 2 := by
    rw [String.length_toList]
    omega
  simp only [read?, hvalue _ hspace, Option.bind_eq_bind, Option.bind_some]
  rfl

end Json

end DiscussionBoard.Document
