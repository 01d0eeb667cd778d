import DiscussionBoard.Proofs.Settings.Leaves

/-!
# Loading layer by layer

How loading ends depends only on the values of the leaves. Each value is that of the first source that
gives one: a variable that is set, one that the `.env` file adds, the layer of the environment, or the
default layer.
-/

namespace DiscussionBoard.Settings

/-! ### Values of leaves -/

/-- The settings that every leaf without a value keeps. -/
abbrev builtIn : Settings := {}

/-- The values of the leaves convert to settings. -/
structure Converts (value : Leaf → Option Document) (settings : Settings) : Prop where
  filter : (value .filter).elim (some builtIn.filter) text? = some settings.filter
  format : (value .format).elim (some builtIn.format) format? = some settings.format
  cacheEnabled :
    (value .cacheEnabled).elim (some builtIn.cacheEnabled) switch? = some settings.cacheEnabled
  discussions :
    (value .discussions).elim (some builtIn.discussions) count? = some settings.discussions

instance (value : Leaf → Option Document) (settings : Settings) :
    Decidable (Converts value settings) :=
  decidable_of_iff (_ ∧ _ ∧ _ ∧ _)
    ⟨fun ⟨filter, format, cacheEnabled, discussions⟩ =>
      ⟨filter, format, cacheEnabled, discussions⟩, fun h => ⟨h.1, h.2, h.3, h.4⟩⟩

theorem ofFields?_eq_some_iff {fields : List (String × Document)} {settings : Settings}
    (htables : ∀ leaf ∈ Leaf.all, leaf.HasTable fields) :
    ofFields? fields = some settings ↔ Converts (fun leaf => leaf.valueIn fields) settings := by
  have hfilter : setting? fields "logging" "filter" 0 text? builtIn.filter = _ :=
    Leaf.setting?_eq (htables .filter (by simp [Leaf.all])) ..
  have hformat : setting? fields "logging" "format" 1 format? builtIn.format = _ :=
    Leaf.setting?_eq (htables .format (by simp [Leaf.all])) ..
  have hcacheEnabled :
      setting? fields "subscriptions" "cache_enabled" 0 switch? builtIn.cacheEnabled = _ :=
    Leaf.setting?_eq (htables .cacheEnabled (by simp [Leaf.all])) ..
  have hdiscussions : setting? fields "seed" "discussions" 0 count? builtIn.discussions = _ :=
    Leaf.setting?_eq (htables .discussions (by simp [Leaf.all])) ..
  simp only [ofFields?, hfilter, hformat, hcacheEnabled, hdiscussions, Option.bind_eq_bind,
    Option.bind_eq_some_iff]
  constructor
  · rintro ⟨filter, hfilter, format, hformat, cacheEnabled, hcacheEnabled, discussions,
      hdiscussions, ⟨⟩⟩
    exact ⟨hfilter, hformat, hcacheEnabled, hdiscussions⟩
  · rintro ⟨hfilter, hformat, hcacheEnabled, hdiscussions⟩
    exact ⟨_, hfilter, _, hformat, _, hcacheEnabled, _, hdiscussions, rfl⟩

/-- How loading ends, by the values of the leaves. -/
structure LoadsAs (value : Leaf → Option Document) (outcome : Except SettingsFault Settings) :
    Prop where
  ok : ∀ settings, outcome = .ok settings ↔ Converts value settings ∧
    Text.isAllBlank settings.filter = false ∧ settings.discussions ≠ 0
  unreadable : outcome = .error .unreadable ↔ ∀ settings, ¬Converts value settings
  emptyFilter : outcome = .error .emptyFilter ↔ ∃ settings, Converts value settings ∧
    Text.isAllBlank settings.filter = true
  noDiscussions : outcome = .error .noDiscussions ↔ ∃ settings, Converts value settings ∧
    Text.isAllBlank settings.filter = false ∧ settings.discussions = 0

/-- Validation looks at the filter first, and at the count only then. -/
theorem validate_cases (settings : Settings) :
    (Text.isAllBlank settings.filter = true ∧ settings.validate = .error .emptyFilter) ∨
    (Text.isAllBlank settings.filter = false ∧ settings.discussions = 0 ∧
      settings.validate = .error .noDiscussions) ∨
    (Text.isAllBlank settings.filter = false ∧ settings.discussions ≠ 0 ∧
      settings.validate = .ok settings) := by
  rw [Settings.validate]
  cases Text.isAllBlank settings.filter with
  | true => exact .inl ⟨rfl, rfl⟩
  | false =>
      by_cases hcount : settings.discussions = 0
      · exact .inr (.inl ⟨rfl, hcount, by simp [hcount]⟩)
      · exact .inr (.inr ⟨rfl, hcount, by simp [hcount]⟩)

theorem loadsAs_of_converts {value : Leaf → Option Document} {converted : Option Settings}
    (hconverted : ∀ settings, converted = some settings ↔ Converts value settings) :
    LoadsAs value (converted.elim (.error .unreadable) validate) := by
  cases converted with
  | none =>
      have hnone : ∀ settings, ¬Converts value settings :=
        fun settings h => nomatch (hconverted settings).mpr h
      exact
        { ok := fun settings => iff_of_false nofun fun h => hnone settings h.1
          unreadable := iff_of_true rfl hnone
          emptyFilter := iff_of_false nofun fun ⟨settings, h⟩ => hnone settings h.1
          noDiscussions := iff_of_false nofun fun ⟨settings, h⟩ => hnone settings h.1 }
  | some found =>
      have hfound : ∀ settings, Converts value settings ↔ found = settings :=
        fun settings => (hconverted settings).symm.trans Option.some_inj
      rw [Option.elim_some]
      rcases found.validate_cases with ⟨hblank, hends⟩ | ⟨hblank, hcount, hends⟩ |
        ⟨hblank, hcount, hends⟩ <;> rw [hends]
      · constructor <;> simp [hfound, hblank]
      · constructor <;> simp [hfound, hblank, hcount]
      · constructor <;> simp [hfound, hblank, hcount]

theorem Converts.of_agree {value other : Leaf → Option Document} {settings : Settings}
    (hvalue : Converts value settings) (hsame : ∀ leaf ∈ Leaf.all, value leaf = other leaf) :
    Converts other settings where
  filter := hsame .filter (by simp [Leaf.all]) ▸ hvalue.filter
  format := hsame .format (by simp [Leaf.all]) ▸ hvalue.format
  cacheEnabled := hsame .cacheEnabled (by simp [Leaf.all]) ▸ hvalue.cacheEnabled
  discussions := hsame .discussions (by simp [Leaf.all]) ▸ hvalue.discussions

/-! ### Sources -/

variable {reader : Reader} {files : String → Option String} {vars : List (String × String)}
  {default special : List (String × Document)}

/-- The entries of all sources, in the orders in which a reader takes them. -/
def Reader.entries (reader : Reader) (default special : List (String × Document))
    (vars : List (String × String)) : List (String × Document) :=
  reader.default.entries default ++ reader.special.entries special ++
    reader.vars.entries (variableEntries vars)

theorem load_of_layers
    (hdefault : LayerFile.fields? reader.formats files defaultLayer = some default)
    (hspecial : LayerFile.fields? reader.formats files
      (environmentLayer (environment files vars)) = some special) :
    reader.load files vars =
      (ofFields? (overlay [] (reader.entries default special (environment files vars)))).elim
        (.error .unreadable) validate := by
  have hsources : reader.sources? files vars =
      some (overlay [] (reader.entries default special (environment files vars))) := by
    rw [Reader.sources?, hdefault]
    dsimp only [bind, Option.bind]
    rw [hspecial]
    simp only [Reader.entries, overlay, List.foldl_append]
  rw [Reader.load, hsources, Option.bind_some]
  cases ofFields? (overlay [] _) <;> rfl

theorem Reader.entries_perm (reader : Reader) (default special : List (String × Document))
    (vars : List (String × String)) :
    (reader.entries default special vars).Perm (default ++ special ++ variableEntries vars) :=
  ((reader.default.perm default).append (reader.special.perm special)).append
    (reader.vars.perm (variableEntries vars))

theorem loadsAs_load
    (hdefault : LayerFile.fields? reader.formats files defaultLayer = some default)
    (hspecial : LayerFile.fields? reader.formats files
      (environmentLayer (environment files vars)) = some special)
    (hsections : ∀ leaf ∈ Leaf.all,
      ∀ entry ∈ default ++ special ++ variableEntries (environment files vars),
        leaf.keepsSection entry = true) :
    LoadsAs (fun leaf => leaf.resolve (reader.entries default special (environment files vars)))
      (reader.load files vars) := by
  -- The merge starts from no section at all, where every leaf is without a value.
  have hempty : ∀ leaf : Leaf, leaf.HasTable [] := fun _ => rfl
  have hmerged : ∀ leaf ∈ Leaf.all, leaf.valueIn _ = leaf.resolve _ ∧ leaf.HasTable _ :=
    fun leaf hleaf => (hempty leaf).overlay_perm (hsections leaf hleaf)
      (reader.entries_perm default special (environment files vars))
  rw [load_of_layers hdefault hspecial]
  refine loadsAs_of_converts fun settings =>
    (ofFields?_eq_some_iff fun leaf hleaf => (hmerged leaf hleaf).2).trans ⟨?_, ?_⟩
  · exact fun h => h.of_agree fun leaf hleaf => (hmerged leaf hleaf).1
  · exact fun h => h.of_agree fun leaf hleaf => (hmerged leaf hleaf).1.symm

/-- Where a variable is set for a leaf, none is added for it under a name in other letters. -/
def Leaf.SpelledAlike (leaf : Leaf) (vars added : List (String × String)) : Prop :=
  ∀ entry ∈ vars, ∀ other ∈ added, variableKey? entry.1 = some leaf.key →
    variableKey? other.1 ≠ some leaf.key

instance (leaf : Leaf) (vars added : List (String × String)) :
    Decidable (leaf.SpelledAlike vars added) :=
  inferInstanceAs (Decidable (∀ _ ∈ _, ∀ _ ∈ _, _))

theorem Leaf.SpelledAlike.lastValue?_append {leaf : Leaf} {vars added : List (String × String)}
    (halike : leaf.SpelledAlike vars added) :
    lastValue? leaf.key (vars ++ added) =
      (lastValue? leaf.key vars).or (lastValue? leaf.key added) := by
  rw [Settings.lastValue?_append]
  cases hset : lastValue? leaf.key vars with
  | none => rw [Option.or_none, Option.none_or]
  | some value =>
      obtain ⟨entry, hlast, -⟩ := Option.map_eq_some_iff.mp hset
      obtain ⟨hentry, hkey⟩ := List.mem_filter.mp (List.mem_of_getLast? hlast)
      have hnone : (added.filter fun other => variableKey? other.1 = some leaf.key) = [] :=
        List.filter_eq_nil_iff.mpr fun other hother hsame =>
          halike entry hentry other hother (of_decide_eq_true hkey) (of_decide_eq_true hsame)
      rw [lastValue?, hnone]
      rfl

/-- Layers in TOML, with their sections as tables, and variables are merged leaf by leaf, in whatever
orders their entries come up: how loading ends depends only on what the sources give each leaf. Unless
a variable leads inside the leaf, a variable for it that is set comes first, then one that the `.env`
file adds, where it is spelled alike, then the layers. Of these that of the environment comes first,
and the built-in value stands where none gives one, unless what they give becomes one. -/
theorem layers_resolve_leaf_by_leaf
    (honlyDefault : LayerFile.OnlyToml reader files defaultLayer)
    (honlySpecial : LayerFile.OnlyToml reader files (environmentLayer (environment files vars)))
    (hdefault : LayerFile.tomlFields? files defaultLayer = some default)
    (hspecial : LayerFile.tomlFields? files (environmentLayer (environment files vars)) =
      some special)
    (hsections : ∀ leaf ∈ Leaf.all,
      ∀ entry ∈ default ++ special ++ variableEntries (environment files vars),
        leaf.keepsSection entry = true) :
    ∃ added, environment files vars = vars ++ added ∧ Adds vars (assignments files vars) added ∧
      environmentName (vars ++ added) =
        (((vars.find? fun entry => entry.1 = "PEERFORUM_ENV").or
          (added.find? fun entry => entry.1 = "PEERFORUM_ENV")).map (·.2)).getD "development" ∧
      (∀ name, LayerFile.IsPlain name →
        LayerFile.withEnding? ("config/" ++ name) "toml" = some ("config/" ++ name ++ ".toml")) ∧
      let value (leaf : Leaf) := leaf.resolve (reader.entries default special (vars ++ added))
      LoadsAs value (reader.load files vars) ∧
      ∀ leaf ∈ Leaf.all, variableKey? leaf.variableName = some leaf.key ∧
        ((∀ entry ∈ variableEntries (vars ++ added), leaf.holds entry.1 = false) →
          leaf.SpelledAlike vars added →
          value leaf = (lastValue? leaf.key vars).or ((lastValue? leaf.key added).or
            (leaf.resolve (reader.default.entries default ++ reader.special.entries special)))) ∧
        (leaf.Apart default special →
          leaf.resolve (reader.default.entries default ++ reader.special.entries special) =
            (leaf.resolve special).or (leaf.resolve default)) := by
  obtain ⟨added, henvironment, hadded⟩ := exists_adds_environment files vars
  rw [← LayerFile.fields?_of_onlyToml honlyDefault] at hdefault
  rw [← LayerFile.fields?_of_onlyToml honlySpecial] at hspecial
  have hloads := loadsAs_load hdefault hspecial hsections
  rw [henvironment] at hloads hsections
  refine ⟨added, henvironment, hadded, environmentName_append vars added,
    fun name hname => LayerFile.withEnding?_layer hname (by decide), hloads, fun leaf hleaf => ?_⟩
  have hnames : ∀ leaf ∈ Leaf.all, variableKey? leaf.variableName = some leaf.key := by
    decide +kernel
  have hkeys : ∀ leaf ∈ Leaf.all, leaf.stepsInto? leaf.key = some [.field leaf.name] := by
    decide +kernel
  refine ⟨hnames leaf hleaf, fun hinside halike => ?_, fun hapart => ?_⟩
  · have hvariables : ∀ entry ∈ variableEntries (vars ++ added), leaf.keepsSection entry = true :=
      fun entry hentry => hsections leaf hleaf entry (List.mem_append_right _ hentry)
    refine (Leaf.resolve_append_variables (hkeys leaf hleaf) hvariables hinside
      (reader.vars.perm _) _).trans ?_
    rw [halike.lastValue?_append, Option.or_assoc]
  · exact Leaf.resolve_of_apart hapart (reader.default.perm default) (reader.special.perm special)

def filesOf (texts : List (String × String)) (name : String) : Option String :=
  (texts.find? fun text => text.1 = name).map (·.2)

/-- Each source sets a leaf that others leave alone, and the default layer gives a count that is no
number. -/
def mixedFiles : String → Option String :=
  filesOf [(".env", "PEERFORUM__LOGGING__FILTER=debug\n"),
    ("config/default.toml", "seed.discussions = 'x'\n"),
    ("config/development.toml", "[logging]\nformat = 'json'\n")]

/-- Looks for other formats first, and takes the entries of a layer in reverse. -/
def backwardReader : Reader where
  formats := [⟨"yaml", fun _ => none⟩, .json, .toml]
  toml := rfl
  default := .asGiven
  special := ⟨List.reverse, List.reverse_perm⟩
  vars := ⟨List.reverse, List.reverse_perm⟩

theorem layers_resolve_leaf_by_leaf_of_mixed :
    let vars := [("PEERFORUM__SEED__DISCUSSIONS", "3")]
    let default := (LayerFile.tomlFields? mixedFiles defaultLayer).getD []
    let special := (LayerFile.tomlFields? mixedFiles
      (environmentLayer (environment mixedFiles vars))).getD []
    backwardReader.load mixedFiles vars =
      .ok { filter := "debug", format := .json, discussions := 3 } ∧
    Leaf.discussions.resolve
      (backwardReader.entries default special (environment mixedFiles vars)) = some (.text "3") ∧
    (Leaf.format.resolve
      (backwardReader.entries default special (environment mixedFiles vars))).bind format? =
        some .json := by
  intro vars default special
  have hdefault : LayerFile.tomlFields? mixedFiles defaultLayer = some default :=
    (Option.getD_of_ne_none (by decide +kernel) []).symm
  have hspecial : LayerFile.tomlFields? mixedFiles
      (environmentLayer (environment mixedFiles vars)) = some special :=
    (Option.getD_of_ne_none (by decide +kernel) []).symm
  have honlyDefault : LayerFile.OnlyToml backwardReader mixedFiles defaultLayer :=
    ⟨by decide +kernel, by decide +kernel⟩
  have honlySpecial : LayerFile.OnlyToml backwardReader mixedFiles
      (environmentLayer (environment mixedFiles vars)) := ⟨by decide +kernel, by decide +kernel⟩
  obtain ⟨added, henvironment, -, -, -, hloads, hleaf⟩ :=
    layers_resolve_leaf_by_leaf honlyDefault honlySpecial hdefault hspecial (by decide +kernel)
  obtain rfl : [("PEERFORUM__LOGGING__FILTER", "debug")] = added := by
    have hvars : environment mixedFiles vars = vars ++ [("PEERFORUM__LOGGING__FILTER", "debug")] := by
      decide +kernel
    exact List.append_cancel_left (hvars.symm.trans henvironment)
  rw [henvironment]
  refine ⟨(hloads.ok _).mpr (by decide +kernel), ?_, ?_⟩
  · obtain ⟨-, hvalue, -⟩ := hleaf .discussions (by decide +kernel)
    exact hvalue (by decide +kernel) (by decide +kernel)
  · obtain ⟨-, hvalue, hlayers⟩ := hleaf .format (by decide +kernel)
    have hformat := hvalue (by decide +kernel) (by decide +kernel)
    rw [hlayers (by decide +kernel)] at hformat
    refine (congrArg (Option.bind · format?) hformat).trans ?_
    decide +kernel

/-- A value inside a leaf is none that its setting can have, and tables that two layers give for one
leaf become one. -/
theorem sources_mix_within_leaves :
    load (filesOf []) [("PEERFORUM__SEED__DISCUSSIONS__X", "4")] = .error .unreadable ∧
    load (filesOf [("config/default.toml", "logging.format.pretty = 1\n"),
      ("config/development.toml", "logging.format.json = 1\n")]) [] = .error .unreadable := by
  decide +kernel

end DiscussionBoard.Settings
