import DiscussionBoard.Proofs.Settings.Sources

/-!
# Settings leaf by leaf

A setting is a leaf: one field of a section. What the sources give of other leaves makes no difference
to it, as long as they give the sections as tables. The orders in which the entries of the sources
come up make none as long as each file gives the leaf once and no variable leads inside it.
-/

namespace DiscussionBoard

def Document.isTable : Document → Bool
  | .table _ => true
  | _ => false

namespace Settings

/-- The place of a setting. -/
structure Leaf where
  part : String
  name : String
deriving DecidableEq

/-- A value for a leaf, or for what steps lead to from the leaf on. -/
structure Portion where
  steps : List Step
  value : Document

namespace Portion

/-- Whether a portion becomes one with what is there: a field with the fields of a table, or an item
with the items of a list. Else it takes the place of what is there. -/
def merges (earlier : Option Document) (portion : Portion) : Bool :=
  match portion.steps, portion.value with
  | .field _ :: _, _ | [], .table _ => !(fieldsOf earlier).isEmpty
  | .item _ :: _, _ => !(itemsOf earlier).isEmpty
  | [], _ => false

def lay (earlier : Option Document) (portion : Portion) : Option Document :=
  some (layAt portion.value portion.steps earlier)

theorem lay_of_not_merges {earlier : Option Document} {portion : Portion}
    (hmerges : portion.merges earlier = false) : lay earlier portion = lay none portion := by
  obtain ⟨steps, value⟩ := portion
  cases steps with
  | nil =>
      cases value with
      | table fields =>
          have hfields : fieldsOf earlier = [] := by simpa [merges] using hmerges
          rw [lay, lay, layAt, layAt, layOver, layOver, hfields]
          rfl
      | null | bool | int | float | text | list => rfl
  | cons step steps =>
      cases step with
      | field name =>
          have hfields : fieldsOf earlier = [] := by simpa [merges] using hmerges
          simp only [lay, layAt, hfields]
          rfl
      | item index =>
          have hitems : itemsOf earlier = [] := by simpa [merges] using hmerges
          simp only [lay, layAt, hitems]
          rfl

theorem merges_none (portion : Portion) : portion.merges none = false := by
  obtain ⟨steps, value⟩ := portion
  cases steps with
  | nil => cases value <;> rfl
  | cons step steps => cases step <;> rfl

/-- There are fields only where some were, or where the portion brings some. -/
theorem fieldsOf_lay {earlier : Option Document} {portion : Portion} (hearlier : fieldsOf earlier = [])
    (halone : fieldsOf (lay none portion) = []) : fieldsOf (lay earlier portion) = [] := by
  obtain ⟨steps, value⟩ := portion
  cases steps with
  | nil =>
      cases value with
      | table fields =>
          simp only [lay, layAt, layOver, hearlier]
          exact halone
      | null | bool | int | float | text | list => rfl
  | cons step steps =>
      cases step with
      | field name =>
          simp only [lay, layAt, hearlier]
          exact halone
      | item index => rfl

theorem itemsOf_lay {portion : Portion} (halone : itemsOf (lay none portion) = [])
    (earlier : Option Document) : itemsOf (lay earlier portion) = [] := by
  obtain ⟨steps, value⟩ := portion
  cases steps with
  | nil =>
      cases value with
      | list items => exact halone
      | null | bool | int | float | text | table => rfl
  | cons step steps =>
      cases step with
      | field name => rfl
      | item index =>
          -- A list that an index leads into has the place that it means.
          have hplace := reach_lt index []
          have hempty : (reach index []).1 = [] := (List.set_eq_nil_iff _ _).mp halone
          rw [hempty] at hplace
          exact absurd hplace (Nat.not_lt_zero _)

theorem merges_lay {later portion : Portion} {earlier : Option Document}
    (hearlier : later.merges earlier = false) (halone : later.merges (lay none portion) = false) :
    later.merges (lay earlier portion) = false := by
  obtain ⟨steps, value⟩ := later
  cases steps with
  | nil =>
      cases value with
      | table fields =>
          simp only [merges, Bool.not_eq_false', List.isEmpty_iff] at hearlier halone ⊢
          exact fieldsOf_lay hearlier halone
      | null | bool | int | float | text | list => rfl
  | cons step steps =>
      cases step with
      | field name =>
          simp only [merges, Bool.not_eq_false', List.isEmpty_iff] at hearlier halone ⊢
          exact fieldsOf_lay hearlier halone
      | item index =>
          simp only [merges, Bool.not_eq_false', List.isEmpty_iff] at halone ⊢
          exact itemsOf_lay halone earlier

/-- What becomes one with none of several portions does not with what they make together. -/
theorem merges_foldl {later : Portion} {portions : List Portion}
    (hapart : ∀ portion ∈ portions, later.merges (lay none portion) = false)
    {earlier : Option Document} (hearlier : later.merges earlier = false) :
    later.merges (portions.foldl lay earlier) = false := by
  induction portions generalizing earlier with
  | nil => exact hearlier
  | cons first rest ih =>
      obtain ⟨hfirst, hrest⟩ := List.forall_mem_cons.mp hapart
      exact ih hrest (merges_lay hearlier hfirst)

end Portion

namespace Leaf

def filter : Leaf := ⟨"logging", "filter"⟩

def format : Leaf := ⟨"logging", "format"⟩

def cacheEnabled : Leaf := ⟨"subscriptions", "cache_enabled"⟩

def discussions : Leaf := ⟨"seed", "discussions"⟩

def all : List Leaf := [filter, format, cacheEnabled, discussions]

def variableName (leaf : Leaf) : String :=
  "PEERFORUM__" ++ leaf.part.toUpper ++ "__" ++ leaf.name.toUpper

/-- The path to a leaf. -/
def key (leaf : Leaf) : String :=
  leaf.part ++ "." ++ leaf.name

/-- The steps that a key takes from the section of a leaf on, if it leads into the section. -/
def stepsInto? (leaf : Leaf) (key : String) : Option (List Step) :=
  (Path.ofString? key).bind fun path => if path.root = leaf.part then some path.steps else none

/-- What an entry of a source gives of a leaf: fields of its section, or what a path leads to. -/
def portions (leaf : Leaf) (entry : String × Document) : List Portion :=
  match leaf.stepsInto? entry.1, entry.2 with
  | some [], .table fields =>
    (fields.filter fun field => field.1 = leaf.name).map fun field => ⟨[], field.2⟩
  | some (.field name :: steps), value => if name = leaf.name then [⟨steps, value⟩] else []
  | _, _ => []

/-- Whether an entry gives the section of a leaf as a table, if it gives any of it. -/
def keepsSection (leaf : Leaf) (entry : String × Document) : Bool :=
  match leaf.stepsInto? entry.1 with
  | some [] => entry.2.isTable
  | some (.item _ :: _) => false
  | some (.field _ :: _) | none => true

/-- What entries make of a leaf, one after the other. -/
def resolve (leaf : Leaf) (entries : List (String × Document)) : Option Document :=
  (entries.flatMap leaf.portions).foldl Portion.lay none

/-- Whether a key leads to a place inside a leaf. -/
def holds (leaf : Leaf) (key : String) : Bool :=
  match leaf.stepsInto? key with
  | some (.field name :: _ :: _) => name = leaf.name
  | _ => false

/-- The value of a leaf among merged fields. -/
def valueIn (leaf : Leaf) (fields : List (String × Document)) : Option Document :=
  Document.lookup leaf.name (fieldsOf (Document.lookup leaf.part fields))

theorem eq_key_of_stepsInto? {leaf : Leaf} {key : String}
    (hsteps : leaf.stepsInto? key = some [.field leaf.name]) : key = leaf.key := by
  obtain ⟨⟨root, steps⟩, hpath, hroot⟩ := Option.bind_eq_some_iff.mp hsteps
  split at hroot
  · rename_i hpart
    cases hroot
    cases hpart
    exact Path.eq_of_ofString?_field hpath
  · cases hroot

variable {leaf : Leaf} {fields entries : List (String × Document)} {entry : String × Document}

/-! ### Merging -/

theorem lookup_layFields (name : String) (earlier fields : List (String × Document)) :
    Document.lookup name (layFields earlier fields) =
      ((fields.filter fun field => field.1 = name).map fun field => ⟨[], field.2⟩).foldl Portion.lay
        (Document.lookup name earlier) := by
  induction fields generalizing earlier with
  | nil => rfl
  | cons field rest ih =>
      obtain ⟨other, value⟩ := field
      rw [layFields, ih]
      by_cases hname : other = name
      · subst hname
        rw [List.filter_cons_of_pos (by simp), Document.lookup_assign_self]
        rfl
      · rw [List.filter_cons_of_neg (by simpa using hname),
          Document.lookup_assign_of_ne (Ne.symm hname)]

theorem lookup_overlay_entry : Document.lookup leaf.part (overlay fields [entry]) =
    match leaf.stepsInto? entry.1 with
    | some steps => some (layAt entry.2 steps (Document.lookup leaf.part fields))
    | none => Document.lookup leaf.part fields := by
  rw [overlay, List.foldl_cons, List.foldl_nil, stepsInto?]
  cases Path.ofString? entry.1 with
  | none => rfl
  | some path =>
      rw [Option.bind_some]
      by_cases hroot : path.root = leaf.part
      · rw [if_pos hroot, ← hroot]
        exact Document.lookup_assign_self ..
      · rw [if_neg hroot]
        exact Document.lookup_assign_of_ne (Ne.symm hroot) ..

theorem keepsSection_cases (hentry : leaf.keepsSection entry = true) :
    leaf.stepsInto? entry.1 = none ∨
    (leaf.stepsInto? entry.1 = some [] ∧ ∃ inner, entry.2 = .table inner) ∨
    ∃ name steps, leaf.stepsInto? entry.1 = some (.field name :: steps) := by
  rw [keepsSection] at hentry
  cases hsteps : leaf.stepsInto? entry.1 with
  | none => exact .inl rfl
  | some steps =>
      rw [hsteps] at hentry
      cases steps with
      | nil =>
          cases hvalue : entry.2 with
          | table inner => exact .inr (.inl ⟨rfl, inner, rfl⟩)
          | null | bool | int | float | text | list =>
              rw [hvalue] at hentry
              cases hentry
      | cons step steps =>
          cases step with
          | item index => cases hentry
          | field name => exact .inr (.inr ⟨name, steps, rfl⟩)

theorem valueIn_overlay_entry (hentry : leaf.keepsSection entry = true) :
    leaf.valueIn (overlay fields [entry]) =
      (leaf.portions entry).foldl Portion.lay (leaf.valueIn fields) := by
  rw [valueIn, lookup_overlay_entry, portions]
  rcases keepsSection_cases hentry with hnone | ⟨hsection, inner, hinner⟩ | ⟨name, steps, hfield⟩
  · rw [hnone]
    rfl
  · -- A table merges with the section field by field, so that only fields of this name matter.
    rw [hsection, hinner]
    exact lookup_layFields leaf.name _ inner
  · rw [hfield]
    dsimp only [layAt, fieldsOf]
    by_cases hname : name = leaf.name
    · rw [if_pos hname, hname]
      exact Document.lookup_assign_self ..
    · rw [if_neg hname]
      exact Document.lookup_assign_of_ne (Ne.symm hname) ..

/-- The section of a leaf is a table, if there is one. -/
def HasTable (leaf : Leaf) (fields : List (String × Document)) : Prop :=
  (Document.lookup leaf.part fields).all Document.isTable = true

theorem HasTable.overlay_entry (htable : leaf.HasTable fields)
    (hentry : leaf.keepsSection entry = true) : leaf.HasTable (overlay fields [entry]) := by
  rw [HasTable, lookup_overlay_entry]
  rcases keepsSection_cases hentry with hnone | ⟨hsection, inner, hinner⟩ | ⟨name, steps, hfield⟩
  · rw [hnone]
    exact htable
  · rw [hsection, hinner]
    rfl
  · rw [hfield]
    rfl

theorem HasTable.overlay (htable : leaf.HasTable fields)
    (hentries : ∀ entry ∈ entries, leaf.keepsSection entry = true) :
    leaf.valueIn (overlay fields entries) =
        (entries.flatMap leaf.portions).foldl Portion.lay (leaf.valueIn fields) ∧
      leaf.HasTable (overlay fields entries) := by
  induction entries generalizing fields with
  | nil => exact ⟨rfl, htable⟩
  | cons entry rest ih =>
      obtain ⟨hentry, hrest⟩ := List.forall_mem_cons.mp hentries
      have hstep : overlay fields (entry :: rest) = overlay (overlay fields [entry]) rest := rfl
      obtain ⟨hvalue, hkept⟩ := ih (htable.overlay_entry hentry) hrest
      rw [hstep, hvalue, valueIn_overlay_entry hentry, List.flatMap_cons, List.foldl_append]
      exact ⟨rfl, hkept⟩

theorem setting?_eq {α : Type} (htable : leaf.HasTable fields) (place : Nat)
    (convert : Document → Option α) (builtIn : α) :
    setting? fields leaf.part leaf.name place convert builtIn =
      (leaf.valueIn fields).elim (some builtIn) convert := by
  rw [HasTable] at htable
  rw [setting?, valueIn]
  cases hpart : Document.lookup leaf.part fields with
  | none => rfl
  | some part =>
      rw [hpart] at htable
      cases part with
      | table inner =>
          rw [given?]
          dsimp only [fieldsOf, bind, Option.bind]
          cases Document.lookup leaf.name inner <;> rfl
      | null | bool | int | float | text | list => cases htable

/-! ### Orders of entries -/

theorem HasTable.overlay_perm {others : List (String × Document)} (htable : leaf.HasTable fields)
    (hentries : ∀ entry ∈ entries, leaf.keepsSection entry = true) (hperm : others.Perm entries) :
    leaf.valueIn (Settings.overlay fields others) =
        (others.flatMap leaf.portions).foldl Portion.lay (leaf.valueIn fields) ∧
      leaf.HasTable (Settings.overlay fields others) :=
  htable.overlay fun entry hentry => hentries entry (hperm.mem_iff.mp hentry)

theorem portions_of_perm {others : List (String × Document)} (hperm : others.Perm entries)
    (honce : (entries.flatMap leaf.portions).length ≤ 1) :
    others.flatMap leaf.portions = entries.flatMap leaf.portions := by
  have hportions : (others.flatMap leaf.portions).Perm (entries.flatMap leaf.portions) :=
    hperm.flatMap_right _
  rcases hgiven : entries.flatMap leaf.portions with _ | ⟨portion, _ | ⟨next, rest⟩⟩
  · rwa [hgiven, List.perm_nil] at hportions
  · rwa [hgiven, List.perm_singleton] at hportions
  · rw [hgiven, List.length_cons, List.length_cons] at honce
    omega

theorem resolve_append (leaf : Leaf) (entries others : List (String × Document)) :
    leaf.resolve (entries ++ others) =
      (others.flatMap leaf.portions).foldl Portion.lay (leaf.resolve entries) := by
  rw [resolve, List.flatMap_append, List.foldl_append, resolve]

/-- A later file gives a leaf once at most, which becomes one with nothing that an earlier one gives.
Where it gives nothing, the earlier one gives the leaf once at most. -/
structure Apart (leaf : Leaf) (default special : List (String × Document)) : Prop where
  once : (special.flatMap leaf.portions).length ≤ 1
  default_once : special.flatMap leaf.portions = [] → (default.flatMap leaf.portions).length ≤ 1
  apart : ∀ later ∈ special.flatMap leaf.portions, ∀ portion ∈ default.flatMap leaf.portions,
    later.merges (Portion.lay none portion) = false

instance (leaf : Leaf) (default special : List (String × Document)) :
    Decidable (leaf.Apart default special) :=
  decidable_of_iff (_ ∧ _ ∧ _)
    ⟨fun ⟨once, default_once, apart⟩ => ⟨once, default_once, apart⟩, fun h => ⟨h.1, h.2, h.3⟩⟩

theorem resolve_of_apart {default special earlier later : List (String × Document)}
    (hapart : leaf.Apart default special) (hearlier : earlier.Perm default)
    (hlater : later.Perm special) :
    leaf.resolve (earlier ++ later) = (leaf.resolve special).or (leaf.resolve default) := by
  obtain ⟨hspecial, hdefault, hmerges⟩ := hapart
  have halone : leaf.resolve special =
      (special.flatMap leaf.portions).foldl Portion.lay none := rfl
  rw [resolve_append, portions_of_perm hlater hspecial, halone]
  rcases hgiven : special.flatMap leaf.portions with _ | ⟨portion, _ | ⟨next, rest⟩⟩
  · rw [resolve, portions_of_perm hearlier (hdefault hgiven), resolve]
    rfl
  · have hkept : portion.merges (leaf.resolve earlier) = false :=
      Portion.merges_foldl (fun other hother => hmerges portion (by simp [hgiven]) other
        ((hearlier.flatMap_right _).mem_iff.mp hother)) portion.merges_none
    exact Portion.lay_of_not_merges hkept
  · rw [hgiven, List.length_cons, List.length_cons] at hspecial
    omega

/-! ### Variables -/

theorem portions_text {key value : String} (hleaf : leaf.stepsInto? leaf.key = some [.field leaf.name])
    (hsection : leaf.keepsSection (key, .text value) = true) (hinside : leaf.holds key = false) :
    leaf.portions (key, .text value) = if key = leaf.key then [⟨[], .text value⟩] else [] := by
  by_cases hkey : key = leaf.key
  · rw [if_pos hkey, hkey, portions, hleaf]
    exact if_pos rfl
  · rw [if_neg hkey, portions]
    rcases keepsSection_cases hsection with hnone | ⟨-, inner, hinner⟩ | ⟨name, steps, hfield⟩
    · rw [hnone]
    · cases hinner
    · rw [hfield]
      refine if_neg fun hname => ?_
      cases steps with
      | nil => exact hkey (eq_key_of_stepsInto? (hname ▸ hfield))
      | cons step steps =>
          rw [holds, hfield] at hinside
          exact of_decide_eq_false hinside hname

theorem flatMap_portions_of_text {entries : List (String × Document)}
    (hleaf : leaf.stepsInto? leaf.key = some [.field leaf.name])
    (htexts : ∀ entry ∈ entries, ∃ value, entry.2 = .text value)
    (hsections : ∀ entry ∈ entries, leaf.keepsSection entry = true)
    (hinside : ∀ entry ∈ entries, leaf.holds entry.1 = false) :
    entries.flatMap leaf.portions =
      (entries.filter fun entry => entry.1 = leaf.key).map fun entry => ⟨[], entry.2⟩ := by
  induction entries with
  | nil => rfl
  | cons entry rest ih =>
      obtain ⟨hsection, hrestSections⟩ := List.forall_mem_cons.mp hsections
      obtain ⟨houtside, hrestInside⟩ := List.forall_mem_cons.mp hinside
      have hrest := ih (fun other hother => htexts other (List.mem_cons_of_mem _ hother))
        hrestSections hrestInside
      obtain ⟨value, hvalue⟩ := htexts entry List.mem_cons_self
      obtain ⟨key, _⟩ := entry
      cases hvalue
      rw [List.flatMap_cons, portions_text hleaf hsection houtside, hrest]
      by_cases hkey : key = leaf.key
      · rw [if_pos hkey, List.filter_cons_of_pos (by simpa using hkey)]
        rfl
      · rw [if_neg hkey, List.filter_cons_of_neg (by simpa using hkey)]
        rfl

/-- A variable for a leaf counts more than all files. -/
theorem resolve_append_variables {vars : List (String × String)}
    {later : List (String × Document)}
    (hleaf : leaf.stepsInto? leaf.key = some [.field leaf.name])
    (hsections : ∀ entry ∈ variableEntries vars, leaf.keepsSection entry = true)
    (hinside : ∀ entry ∈ variableEntries vars, leaf.holds entry.1 = false)
    (hlater : later.Perm (variableEntries vars)) (layers : List (String × Document)) :
    leaf.resolve (layers ++ later) = (lastValue? leaf.key vars).or (leaf.resolve layers) := by
  have hportions : (variableEntries vars).flatMap leaf.portions =
      ((lastValue? leaf.key vars).map fun value => ⟨[], value⟩).toList := by
    rw [flatMap_portions_of_text hleaf (fun _ => exists_text_of_mem_variableEntries) hsections
      hinside, filter_variableEntries]
    cases lastValue? leaf.key vars <;> rfl
  have honce : ((variableEntries vars).flatMap leaf.portions).length ≤ 1 := by
    rw [hportions]
    cases lastValue? leaf.key vars <;> simp
  rw [resolve_append, portions_of_perm hlater honce, hportions]
  cases hvalue : lastValue? leaf.key vars with
  | none => rfl
  | some value =>
      obtain ⟨entry, -, rfl⟩ := Option.map_eq_some_iff.mp hvalue
      rfl

end Leaf

end Settings

end DiscussionBoard
