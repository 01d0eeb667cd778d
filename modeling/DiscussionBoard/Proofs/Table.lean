import DiscussionBoard.Table

/-!
# Tables from lists, and sets

A table made of a list whose keys differ holds the entries of the list. A set is known by its
members, whatever the order in which they came.
-/

namespace DiscussionBoard

namespace Table

variable {κ ν ω : Type} [Key κ]

/-- The same keys, each with the image of its value. -/
def mapValues (table : Table κ ν) (f : ν → ω) : Table κ ω :=
  ⟨table.entries.map fun entry => (entry.1, f entry.2), table.sorted.map _ fun _ _ h => h⟩

theorem get?_foldl_insert {entries : List (κ × ν)} (hkeys : (entries.map (·.1)).Nodup)
    (table : Table κ ν) (key : κ) (value : ν) :
    (entries.foldl (fun table entry => table.insert entry.1 entry.2) table).get? key = some value ↔
      (key, value) ∈ entries ∨ key ∉ entries.map (·.1) ∧ table.get? key = some value := by
  induction entries generalizing table with
  | nil => simp
  | cons entry rest ih =>
      obtain ⟨hentry, hrest⟩ := List.nodup_cons.mp hkeys
      rw [List.foldl_cons, ih hrest]
      by_cases hkey : key = entry.1
      · subst hkey
        have hfresh : (entry.1, value) ∉ rest := fun h =>
          hentry (List.mem_map_of_mem (f := (·.1)) h)
        have hpair : (entry.1, value) = entry ↔ entry.2 = value := by
          rw [Prod.ext_iff]
          simp [eq_comm]
        simp [hfresh, hentry, hpair]
      · have hpair : (key, value) ≠ entry := fun h => hkey (congrArg Prod.fst h)
        simp [hkey, hpair, get?_insert_of_ne _ _ hkey]

theorem get?_ofList_eq_some_iff {entries : List (κ × ν)} (hkeys : (entries.map (·.1)).Nodup)
    {key : κ} {value : ν} : (ofList entries).get? key = some value ↔ (key, value) ∈ entries := by
  rw [ofList, get?_foldl_insert hkeys]
  simp

theorem get?_mapValues (table : Table κ ν) (f : ν → ω) (key : κ) :
    (table.mapValues f).get? key = (table.get? key).map f := by
  simp [get?, mapValues, List.find?_map, Function.comp_def]

theorem values_mapValues (table : Table κ ν) (f : ν → ω) :
    (table.mapValues f).values = table.values.map f := by
  simp [values, mapValues]

theorem size_mapValues (table : Table κ ν) (f : ν → ω) : (table.mapValues f).size = table.size := by
  simp [size, mapValues]

theorem mapValues_filter (table : Table κ ν) (f : ν → ω) (keep : κ → ω → Bool) :
    (table.filter fun key value => keep key (f value)).mapValues f =
      (table.mapValues f).filter keep := by
  apply entries_inj
  simp [filter, mapValues, List.filter_map, Function.comp_def]

theorem mapValues_insert (table : Table κ ν) (f : ν → ω) (key : κ) (value : ν) :
    (table.insert key value).mapValues f = (table.mapValues f).insert key (f value) := by
  apply ext
  intro other
  rw [get?_mapValues]
  by_cases hother : other = key
  · rw [hother, get?_insert_self, get?_insert_self]
    rfl
  · rw [get?_insert_of_ne _ _ hother, get?_insert_of_ne _ _ hother, get?_mapValues]

theorem nodup_keys (table : Table κ ν) : table.keys.Nodup := by
  rw [keys, List.Nodup, List.pairwise_map]
  exact table.sorted.imp fun hlt hsame => Nat.ne_of_lt hlt (congrArg Key.code hsame)

theorem length_insertEntry {entries : List (κ × ν)} (key : κ) (value : ν)
    (hsorted : entries.Pairwise fun a b => Key.code a.1 < Key.code b.1) :
    (key ∈ entries.map (·.1) ∧ (insertEntry key value entries).length = entries.length) ∨
      (key ∉ entries.map (·.1) ∧ (insertEntry key value entries).length = entries.length + 1) := by
  induction entries with
  | nil => exact .inr ⟨List.not_mem_nil, rfl⟩
  | cons first rest ih =>
      obtain ⟨hfirst, hrest⟩ := List.pairwise_cons.mp hsorted
      rw [insertEntry, List.map_cons, List.mem_cons]
      split
      · rename_i hlt
        refine .inr ⟨?_, rfl⟩
        rintro (rfl | hlater)
        · exact Nat.lt_irrefl _ hlt
        · obtain ⟨entry, hentry, rfl⟩ := List.mem_map.mp hlater
          exact Nat.lt_asymm hlt (hfirst entry hentry)
      · split
        · rename_i hsame
          exact .inl ⟨.inl (Key.code_inj hsame), rfl⟩
        · rename_i hne
          have hother : key ≠ first.1 := fun h => hne (congrArg Key.code h)
          rcases ih hrest with ⟨hmem, hlength⟩ | ⟨hmem, hlength⟩
          · exact .inl ⟨.inr hmem, congrArg (· + 1) hlength⟩
          · exact .inr ⟨not_or.mpr ⟨hother, hmem⟩, congrArg (· + 1) hlength⟩

/-- An insertion adds one entry or none. -/
theorem size_insert (table : Table κ ν) (key : κ) (value : ν) :
    (table.insert key value).size = table.size + (!table.contains key).toNat := by
  rcases length_insertEntry key value table.sorted with ⟨hmem, hlength⟩ | ⟨hmem, hlength⟩
  · rw [contains_eq_true_iff.mpr hmem]
    exact hlength
  · rw [Bool.eq_false_iff.mpr (mt contains_eq_true_iff.mp hmem)]
    exact hlength

/-- What a filter takes away is what fails its test. -/
theorem size_sub_size_filter (table : Table κ ν) (keep : κ → ν → Bool) :
    table.size - (table.filter keep).size =
      table.entries.countP fun entry => !keep entry.1 entry.2 := by
  have hsplit := List.length_eq_countP_add_countP (fun entry => keep entry.1 entry.2)
    (l := table.entries)
  have hfails : (fun entry : κ × ν => decide ¬keep entry.1 entry.2 = true) =
      fun entry => !keep entry.1 entry.2 := by
    funext entry
    simp
  rw [hfails, List.countP_eq_length_filter] at hsplit
  simp only [size, filter]
  omega

theorem countP_keys (table : Table κ ν) (test : κ → Bool) :
    table.keys.countP test = table.entries.countP fun entry => test entry.1 :=
  List.countP_map

theorem countP_values (table : Table κ ν) (test : ν → Bool) :
    table.values.countP test = table.entries.countP fun entry => test entry.2 :=
  List.countP_map

/-- Tables that agree where a test is passed have as many entries that pass it. -/
theorem countP_congr {a b : Table κ ν} (test : κ → ν → Bool)
    (h : ∀ key, (a.get? key).filter (test key) = (b.get? key).filter (test key)) :
    (a.entries.countP fun entry => test entry.1 entry.2) =
      b.entries.countP fun entry => test entry.1 entry.2 := by
  have hfilter : a.filter test = b.filter test := by
    apply ext
    intro key
    rw [get?_filter, get?_filter, h]
  have hentries := congrArg (fun table : Table κ ν => table.entries.length) hfilter
  rw [List.countP_eq_length_filter, List.countP_eq_length_filter]
  exact hentries

end Table

namespace KeySet

variable {κ : Type} [Key κ]

theorem contains_insert (set : KeySet κ) (key other : κ) :
    Table.contains (set.insert key ()) other = true ↔ other = key ∨ set.contains other = true := by
  by_cases hother : other = key
  · simp [Table.contains, hother]
  · simp [Table.contains, hother, Table.get?_insert_of_ne _ _ hother]

theorem contains_erase (set : KeySet κ) (key other : κ) :
    Table.contains (set.erase key) other = true ↔ other ≠ key ∧ set.contains other = true := by
  by_cases hother : other = key
  · simp [Table.contains, hother, Table.get?_erase_self]
  · simp [Table.contains, hother, Table.get?_erase_of_ne _ hother]

theorem contains_filter (set : KeySet κ) (keep : κ → Unit → Bool) (key : κ) :
    Table.contains (set.filter keep) key = true ↔ keep key () = true ∧ set.contains key = true := by
  rw [Table.contains, Table.get?_filter, Table.contains]
  cases set.get? key <;> simp

theorem ext {a b : KeySet κ} (h : ∀ key, a.contains key = true ↔ b.contains key = true) :
    a = b := by
  apply Table.ext
  intro key
  have hkey := h key
  rw [Table.contains, Table.contains] at hkey
  cases ha : a.get? key <;> cases hb : b.get? key <;> simp_all

theorem contains_ofList (members : List κ) (key : κ) :
    (KeySet.ofList members).contains key = true ↔ key ∈ members := by
  have hfold : ∀ (members : List κ) (set : KeySet κ),
      ((members.map fun member => (member, ())).foldl
        (fun set entry => set.insert entry.1 entry.2) set).contains key = true ↔
        key ∈ members ∨ set.contains key = true := by
    intro members
    induction members with
    | nil => simp
    | cons member rest ih =>
        intro set
        rw [List.map_cons, List.foldl_cons, ih, contains_insert, List.mem_cons]
        constructor
        · rintro (h | h | h)
          · exact .inl (.inr h)
          · exact .inl (.inl h)
          · exact .inr h
        · rintro ((h | h) | h)
          · exact .inr (.inl h)
          · exact .inl h
          · exact .inr (.inr h)
  rw [KeySet.ofList, Table.ofList, hfold]
  simp [Table.contains]

theorem mem_toList_iff {set : KeySet κ} {key : κ} : key ∈ set.toList ↔ set.contains key = true :=
  Table.contains_eq_true_iff.symm

theorem nodup_toList (set : KeySet κ) : set.toList.Nodup :=
  Table.nodup_keys set

theorem toList_pairwise_lt (set : KeySet Id) : set.toList.Pairwise (· < ·) := by
  rw [toList, Table.keys, List.pairwise_map]
  exact set.sorted

end KeySet

end DiscussionBoard
