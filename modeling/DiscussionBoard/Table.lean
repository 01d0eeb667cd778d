import DiscussionBoard.Id

/-!
# Tables

Finite maps kept in the strict order of their keys, so that two tables with the same look-ups are
equal and a listing of a table has one order only. A set is a table without values.
-/

namespace DiscussionBoard

/-- Keys are ordered by a number that tells them apart. -/
class Key (κ : Type) where
  code : κ → Nat
  code_inj : ∀ {a b : κ}, code a = code b → a = b

instance : Key Id where
  code := Id.toNat
  code_inj := Id.toNat_inj.mp

/-- Pairs of ids are ordered by the first id, then by the second. -/
instance : Key (Id × Id) where
  code pair := pair.1.toNat * (1 <<< 128) + pair.2.toNat
  code_inj := by
    rintro ⟨a, b⟩ ⟨c, d⟩ h
    have hb := b.toNat_lt
    have hd := d.toNat_lt
    simp only at h
    have hac : a.toNat = c.toNat := by omega
    have hbd : b.toNat = d.toNat := by omega
    rw [Id.toNat_inj.mp hac, Id.toNat_inj.mp hbd]

structure Table (κ ν : Type) [Key κ] where
  entries : List (κ × ν)
  sorted : entries.Pairwise fun a b => Key.code a.1 < Key.code b.1

namespace Table

variable {κ ν : Type} [Key κ]

instance [DecidableEq κ] [DecidableEq ν] : DecidableEq (Table κ ν) := fun a b =>
  decidable_of_iff (a.entries = b.entries) (by cases a; cases b; simp)

def empty : Table κ ν :=
  ⟨[], .nil⟩

instance : Inhabited (Table κ ν) := ⟨empty⟩

def size (table : Table κ ν) : Nat :=
  table.entries.length

def keys (table : Table κ ν) : List κ :=
  table.entries.map (·.1)

def values (table : Table κ ν) : List ν :=
  table.entries.map (·.2)

def get? (table : Table κ ν) (key : κ) : Option ν :=
  (table.entries.find? fun entry => Key.code entry.1 = Key.code key).map (·.2)

def contains (table : Table κ ν) (key : κ) : Bool :=
  (table.get? key).isSome

/-- The entries that pass a test. -/
def filter (table : Table κ ν) (keep : κ → ν → Bool) : Table κ ν :=
  ⟨table.entries.filter fun entry => keep entry.1 entry.2, table.sorted.filter _⟩

def erase (table : Table κ ν) (key : κ) : Table κ ν :=
  table.filter fun other _ => Key.code other ≠ Key.code key

def insertEntry (key : κ) (value : ν) : List (κ × ν) → List (κ × ν)
  | [] => [(key, value)]
  | entry :: rest =>
    if Key.code key < Key.code entry.1 then (key, value) :: entry :: rest
    else if Key.code key = Key.code entry.1 then (key, value) :: rest
    else entry :: insertEntry key value rest

theorem mem_insertEntry {key : κ} {value : ν} {entries : List (κ × ν)} {entry : κ × ν}
    (hentry : entry ∈ insertEntry key value entries) : entry = (key, value) ∨ entry ∈ entries := by
  induction entries with
  | nil => exact .inl (by simpa [insertEntry] using hentry)
  | cons first rest ih =>
    simp only [insertEntry] at hentry
    split at hentry
    · simpa using hentry
    · split at hentry
      · rcases List.mem_cons.mp hentry with h | h
        · exact .inl h
        · exact .inr (List.mem_cons_of_mem _ h)
      · rcases List.mem_cons.mp hentry with h | h
        · exact .inr (h ▸ List.mem_cons_self)
        · exact (ih h).imp_right (List.mem_cons_of_mem _)

theorem pairwise_insertEntry (key : κ) (value : ν) {entries : List (κ × ν)}
    (hsorted : entries.Pairwise fun a b => Key.code a.1 < Key.code b.1) :
    (insertEntry key value entries).Pairwise fun a b => Key.code a.1 < Key.code b.1 := by
  induction entries with
  | nil => simp [insertEntry]
  | cons first rest ih =>
    obtain ⟨hfirst, hrest⟩ := List.pairwise_cons.mp hsorted
    simp only [insertEntry]
    split
    · rename_i hlt
      refine List.pairwise_cons.mpr ⟨fun entry hentry => ?_, hsorted⟩
      rcases List.mem_cons.mp hentry with rfl | hentry
      · exact hlt
      · exact Nat.lt_trans hlt (hfirst entry hentry)
    · split
      · rename_i heq
        refine List.pairwise_cons.mpr ⟨fun entry hentry => ?_, hrest⟩
        exact heq ▸ hfirst entry hentry
      · rename_i hlt hne
        refine List.pairwise_cons.mpr ⟨fun entry hentry => ?_, ih hrest⟩
        rcases mem_insertEntry hentry with rfl | hentry
        · simp only
          omega
        · exact hfirst entry hentry

/-- Adds an entry, in place of one with the same key. -/
def insert (table : Table κ ν) (key : κ) (value : ν) : Table κ ν :=
  ⟨insertEntry key value table.entries, pairwise_insertEntry key value table.sorted⟩

/-- Of two entries with the same key the later one stays. -/
def ofList (entries : List (κ × ν)) : Table κ ν :=
  entries.foldl (fun table entry => table.insert entry.1 entry.2) empty

theorem get?_eq_some_iff {table : Table κ ν} {key : κ} {value : ν} :
    table.get? key = some value ↔ (key, value) ∈ table.entries := by
  obtain ⟨entries, hsorted⟩ := table
  simp only [get?]
  induction entries with
  | nil => simp
  | cons first rest ih =>
    obtain ⟨hfirst, hrest⟩ := List.pairwise_cons.mp hsorted
    by_cases hkey : Key.code first.1 = Key.code key
    · have hsame : first.1 = key := Key.code_inj hkey
      subst hsame
      have hlate : ¬ (first.1, value) ∈ rest := fun h => Nat.lt_irrefl _ (hfirst (first.1, value) h)
      simp only [List.find?_cons, decide_true, Option.map_some, Option.some.injEq, List.mem_cons,
        hlate, or_false]
      constructor
      · rintro rfl
        rfl
      · intro h
        exact (congrArg Prod.snd h).symm
    · have hother : (key, value) ≠ first := by
        rintro rfl
        exact hkey rfl
      simp [hkey, ih hrest, hother]

@[simp]
theorem get?_empty (key : κ) : (empty : Table κ ν).get? key = none := rfl

@[simp]
theorem get?_insert_self (table : Table κ ν) (key : κ) (value : ν) :
    (table.insert key value).get? key = some value := by
  rw [get?_eq_some_iff]
  change (key, value) ∈ insertEntry key value table.entries
  generalize table.entries = entries
  induction entries with
  | nil => simp [insertEntry]
  | cons first rest ih =>
    simp only [insertEntry]
    split
    · simp
    · split <;> simp [ih]

theorem mem_insertEntry_of_ne {key : κ} {value : ν} {entries : List (κ × ν)} {entry : κ × ν}
    (hne : entry.1 ≠ key) : entry ∈ insertEntry key value entries ↔ entry ∈ entries := by
  have hnew : entry ≠ (key, value) := fun h => hne (congrArg Prod.fst h)
  induction entries with
  | nil => simp [insertEntry, hnew]
  | cons first rest ih =>
    simp only [insertEntry]
    split
    · simp [hnew]
    · split
      · rename_i heq
        have hfirst : entry ≠ first := fun h => hne (h ▸ Key.code_inj heq.symm)
        simp [hnew, hfirst]
      · simp [ih]

theorem get?_insert_of_ne (table : Table κ ν) {key other : κ} (value : ν) (hne : other ≠ key) :
    (table.insert key value).get? other = table.get? other := by
  apply Option.ext
  intro found
  rw [get?_eq_some_iff, get?_eq_some_iff, insert]
  exact mem_insertEntry_of_ne hne

theorem get?_filter (table : Table κ ν) (keep : κ → ν → Bool) (key : κ) :
    (table.filter keep).get? key = (table.get? key).filter (keep key) := by
  apply Option.ext
  intro value
  rw [get?_eq_some_iff, Option.filter_eq_some_iff, get?_eq_some_iff]
  simp [filter]

theorem get?_erase_self (table : Table κ ν) (key : κ) : (table.erase key).get? key = none := by
  rw [erase, get?_filter]
  cases table.get? key <;> simp

theorem get?_erase_of_ne (table : Table κ ν) {key other : κ} (hne : other ≠ key) :
    (table.erase key).get? other = table.get? other := by
  have hcode : Key.code other ≠ Key.code key := fun h => hne (Key.code_inj h)
  rw [erase, get?_filter]
  cases table.get? other <;> simp [hcode]

theorem contains_eq_true_iff {table : Table κ ν} {key : κ} :
    table.contains key = true ↔ key ∈ table.keys := by
  simp [contains, keys, Option.isSome_iff_exists, get?_eq_some_iff]

theorem mem_values_iff {table : Table κ ν} {value : ν} :
    value ∈ table.values ↔ ∃ key, table.get? key = some value := by
  simp [values, get?_eq_some_iff]

theorem entries_inj {a b : Table κ ν} (h : a.entries = b.entries) : a = b := by
  cases a
  cases b
  exact (Table.mk.injEq ..).mpr h

/-- Two tables with the same look-ups are equal. -/
@[ext]
theorem ext {a b : Table κ ν} (h : ∀ key, a.get? key = b.get? key) : a = b := by
  apply entries_inj
  have hmem : ∀ entry, entry ∈ a.entries ↔ entry ∈ b.entries := by
    rintro ⟨key, value⟩
    rw [← get?_eq_some_iff, ← get?_eq_some_iff, h]
  have hnodup : ∀ {entries : List (κ × ν)},
      entries.Pairwise (fun a b => Key.code a.1 < Key.code b.1) → entries.Nodup := fun hsorted =>
    hsorted.imp (by rintro x _ hlt rfl; exact Nat.lt_irrefl _ hlt)
  have hperm : a.entries.Perm b.entries :=
    (List.perm_ext_iff_of_nodup (hnodup a.sorted) (hnodup b.sorted)).mpr hmem
  exact hperm.eq_of_pairwise (fun x y _ _ hxy hyx => absurd hxy (Nat.lt_asymm hyx))
    a.sorted b.sorted

end Table

/-- Finite sets, listed in the order of their keys. -/
abbrev KeySet (κ : Type) [Key κ] := Table κ Unit

namespace KeySet

variable {κ : Type} [Key κ]

def ofList (members : List κ) : KeySet κ :=
  Table.ofList (members.map fun member => (member, ()))

/-- The members in ascending order. -/
def toList (set : KeySet κ) : List κ :=
  set.keys

end KeySet

end DiscussionBoard
