import Mathlib.Data.List.Induction
import DiscussionBoard.Settings.Load

/-!
# Where settings come from

A `.env` file adds variables to those that are set and changes none of them. The environment is named
by one of these variables, and names a file in turn.
-/

namespace DiscussionBoard.Settings

variable {files : String → Option String}

/-! ### Variables -/

/-- What entries set, one after the other, whether it counts or not. Each one sees the variables that
count before it. -/
def Dotenv.assignments (vars : List (String × String)) :
    List (Option (List Char)) → List (String × String)
  | [] => []
  | none :: _ => []
  | some chars :: rest =>
    match entry? vars chars with
    | none => []
    | some none => assignments vars rest
    | some (some (name, value)) =>
      (name, value) ::
        assignments (if isSet vars name then vars else vars ++ [(name, value)]) rest

/-- What the `.env` file sets, whether it counts or not. -/
def assignments (files : String → Option String) (vars : List (String × String)) :
    List (String × String) :=
  match files ".env" with
  | some content => Dotenv.assignments vars
      (Dotenv.entries [] .complete (Dotenv.splitLines (Dotenv.dropMark content.toList)))
  | none => []

/-- Variables that are added to others: each name that is not set already and that a file gives, once,
with what the file gives first for it. -/
structure Adds (vars given added : List (String × String)) : Prop where
  nodup : (added.map (·.1)).Nodup
  find?_added : ∀ name, (added.find? fun entry => entry.1 = name) =
    if Dotenv.isSet vars name then none else given.find? fun entry => entry.1 = name

section Adding

variable {vars given added : List (String × String)} {name : String} (value : String)

theorem Adds.nil (vars : List (String × String)) : Adds vars [] [] :=
  ⟨.nil, fun name => by split <;> rfl⟩

theorem Adds.skip (hset : Dotenv.isSet vars name = true) (hadded : Adds vars given added) :
    Adds vars ((name, value) :: given) added := by
  refine ⟨hadded.nodup, fun other => ?_⟩
  rw [hadded.find?_added]
  split
  · rfl
  · rename_i hunset
    have hother : name ≠ other := fun hsame => hunset (hsame ▸ hset)
    rw [List.find?_cons_of_neg (by simpa using hother)]

theorem Adds.cons (hunset : Dotenv.isSet vars name = false)
    (hadded : Adds (vars ++ [(name, value)]) given added) :
    Adds vars ((name, value) :: given) ((name, value) :: added) := by
  have hset : ∀ other, Dotenv.isSet (vars ++ [(name, value)]) other =
      (Dotenv.isSet vars other || decide (name = other)) := by
    intro other
    simp [Dotenv.isSet]
  constructor
  · -- A second one of this name would not be added to variables with the first.
    refine List.nodup_cons.mpr ⟨fun hmem => ?_, hadded.nodup⟩
    have hnone : (added.find? fun entry => entry.1 = name) = none := by
      rw [hadded.find?_added, hset]
      simp
    obtain ⟨entry, hentry, hname⟩ := List.mem_map.mp hmem
    exact List.find?_eq_none.mp hnone entry hentry (by simpa using hname)
  · intro other
    by_cases hother : name = other
    · subst hother
      rw [hunset, List.find?_cons_of_pos (by simp), List.find?_cons_of_pos (by simp)]
      rfl
    · rw [List.find?_cons_of_neg (by simpa using hother),
        List.find?_cons_of_neg (by simpa using hother), hadded.find?_added, hset,
        decide_eq_false hother, Bool.or_false]

end Adding

theorem exists_adds_apply (vars : List (String × String)) (entries : List (Option (List Char))) :
    ∃ added, Dotenv.apply vars entries = vars ++ added ∧
      Adds vars (Dotenv.assignments vars entries) added := by
  induction entries generalizing vars with
  | nil => exact ⟨[], (List.append_nil vars).symm, .nil vars⟩
  | cons first rest ih =>
      -- A line that cannot be read ends the file, so nothing is added from there on.
      have hend : ∃ added, vars = vars ++ added ∧ Adds vars [] added :=
        ⟨[], (List.append_nil vars).symm, .nil vars⟩
      cases first with
      | none => exact hend
      | some chars =>
          rw [Dotenv.apply, Dotenv.assignments]
          rcases Dotenv.entry? vars chars with _ | _ | ⟨name, value⟩
          · exact hend
          · exact ih vars
          · dsimp only
            cases hset : Dotenv.isSet vars name with
            | true =>
                obtain ⟨added, happly, hadded⟩ := ih vars
                exact ⟨added, happly, hadded.skip value hset⟩
            | false =>
                obtain ⟨added, happly, hadded⟩ := ih (vars ++ [(name, value)])
                refine ⟨(name, value) :: added, happly.trans ?_, hadded.cons value hset⟩
                rw [List.append_assoc]
                rfl

theorem exists_adds_environment (files : String → Option String) (vars : List (String × String)) :
    ∃ added, environment files vars = vars ++ added ∧ Adds vars (assignments files vars) added := by
  rw [environment, assignments]
  cases files ".env" with
  | none => exact ⟨[], (List.append_nil vars).symm, .nil vars⟩
  | some content => exact exists_adds_apply vars _

/-- The environment is named by what is set, else by what is added. -/
theorem environmentName_append (vars added : List (String × String)) :
    environmentName (vars ++ added) =
      (((vars.find? fun entry => entry.1 = "PEERFORUM_ENV").or
        (added.find? fun entry => entry.1 = "PEERFORUM_ENV")).map (·.2)).getD "development" := by
  rw [environmentName, List.find?_append]
  cases vars.find? _ <;> cases added.find? _ <;> rfl

/-! ### Paths -/

namespace Path

theorem steps?_eq_some_nil {chars : List Char} (hsteps : steps? chars = some []) : chars = [] := by
  unfold steps? at hsteps
  split at hsteps
  · rfl
  · dsimp only at hsteps
    split at hsteps
    · cases hsteps
    · simp at hsteps
  · dsimp only at hsteps
    split at hsteps
    · cases hsteps
    · simp [Option.bind_eq_some_iff] at hsteps
  · cases hsteps

theorem eq_of_steps?_field {chars : List Char} {name : String}
    (hsteps : steps? chars = some [.field name]) : chars = '.' :: name.toList := by
  unfold steps? at hsteps
  split at hsteps
  · cases hsteps
  · rename_i rest
    dsimp only at hsteps
    split at hsteps
    · cases hsteps
    · obtain ⟨others, hothers, hcons⟩ := Option.map_eq_some_iff.mp hsteps
      obtain ⟨hname, rfl⟩ := List.cons_eq_cons.mp hcons
      have hlong : rest.length ≤ (rest.takeWhile isNameChar).length :=
        List.drop_eq_nil_iff.mp (steps?_eq_some_nil hothers)
      have hwhole : rest.takeWhile isNameChar = rest :=
        (List.takeWhile_sublist _).eq_of_length_le hlong
      cases hname
      rw [hwhole, String.toList_ofList]
  · dsimp only at hsteps
    split at hsteps
    · cases hsteps
    · simp [Option.bind_eq_some_iff] at hsteps
  · cases hsteps

/-- The path to one field of a section has one spelling. -/
theorem eq_of_ofString?_field {key root name : String}
    (hpath : ofString? key = some ⟨root, [.field name]⟩) : key = root ++ "." ++ name := by
  rw [ofString?] at hpath
  split at hpath
  · cases hpath
  · obtain ⟨steps, hsteps, hroot⟩ := Option.map_eq_some_iff.mp hpath
    cases hroot
    have hrest := eq_of_steps?_field hsteps
    apply String.toList_inj.mp
    calc key.toList
        = key.toList.takeWhile isNameChar ++
            key.toList.drop (key.toList.takeWhile isNameChar).length :=
          (List.prefix_iff_eq_append.mp (List.takeWhile_prefix isNameChar)).symm
      _ = key.toList.takeWhile isNameChar ++ '.' :: name.toList := by rw [hrest]
      _ = _ := by simp

end Path

/-! ### Entries -/

section Assign

variable {key name : String} {fields : List (String × Document)}

theorem filter_assign_of_ne (hne : name ≠ key) (value : Document) :
    (Document.assign name value fields).filter (fun entry => entry.1 = key) =
      fields.filter fun entry => entry.1 = key := by
  induction fields with
  | nil => simp [Document.assign, hne]
  | cons field rest ih =>
      rw [Document.assign]
      split
      · rename_i hname
        simp [hne, hname]
      · rw [List.filter_cons, List.filter_cons, ih]

theorem filter_assign_self (value : Document)
    (hone : (fields.filter fun entry => entry.1 = name).length ≤ 1) :
    (Document.assign name value fields).filter (fun entry => entry.1 = name) =
      [(name, value)] := by
  induction fields with
  | nil => simp [Document.assign]
  | cons field rest ih =>
      rw [Document.assign]
      split
      · rename_i hname
        rw [List.filter_cons_of_pos (by simpa using hname), List.length_cons] at hone
        have hrest : rest.filter (fun entry => entry.1 = name) = [] :=
          List.eq_nil_of_length_eq_zero (by omega)
        rw [List.filter_cons_of_pos (by simp), hrest]
      · rename_i hname
        rw [List.filter_cons_of_neg (by simpa using hname)] at hone ⊢
        exact ih hone

end Assign

/-- The last value that variables give a key. -/
def lastValue? (key : String) (vars : List (String × String)) : Option Document :=
  (vars.filter fun entry => variableKey? entry.1 = some key).getLast?.map fun entry => .text entry.2

theorem lastValue?_append (key : String) (vars others : List (String × String)) :
    lastValue? key (vars ++ others) = (lastValue? key others).or (lastValue? key vars) := by
  rw [lastValue?, List.filter_append, List.getLast?_append, Option.map_or]
  rfl

theorem variableEntries_concat (vars : List (String × String)) (entry : String × String) :
    variableEntries (vars ++ [entry]) =
      match variableKey? entry.1 with
      | some key => Document.assign key (.text entry.2) (variableEntries vars)
      | none => variableEntries vars :=
  List.foldl_append

/-- Variables give each key once at most, with the last value for it. -/
theorem filter_variableEntries (key : String) (vars : List (String × String)) :
    (variableEntries vars).filter (fun entry => entry.1 = key) =
      ((lastValue? key vars).map fun value => (key, value)).toList := by
  induction vars using List.reverseRecOn with
  | nil => rfl
  | append_singleton vars entry ih =>
      rw [variableEntries_concat, lastValue?_append]
      cases hkey : variableKey? entry.1 with
      | none => simpa [lastValue?, hkey] using ih
      | some other =>
          by_cases hother : other = key
          · subst hother
            have hlast : lastValue? other [entry] = some (.text entry.2) := by
              simp [lastValue?, hkey]
            have hone : ((variableEntries vars).filter fun entry => entry.1 = other).length ≤ 1 := by
              rw [ih]
              cases lastValue? other vars <;> simp
            rw [hlast]
            exact filter_assign_self _ hone
          · have hlast : lastValue? key [entry] = none := by
              simp [lastValue?, hkey, hother]
            rw [hlast, Option.none_or, ← ih]
            exact filter_assign_of_ne hother _

theorem exists_text_of_mem_variableEntries {vars : List (String × String)}
    {entry : String × Document} (hentry : entry ∈ variableEntries vars) :
    ∃ value, entry.2 = .text value := by
  have hkept : entry ∈ (variableEntries vars).filter fun other => other.1 = entry.1 :=
    List.mem_filter.mpr ⟨hentry, decide_eq_true rfl⟩
  rw [filter_variableEntries, Option.mem_toList, Option.map_eq_some_iff] at hkept
  obtain ⟨value, hvalue, hsame⟩ := hkept
  obtain ⟨source, -, htext⟩ := Option.map_eq_some_iff.mp hvalue
  exact ⟨source.2, (congrArg Prod.snd hsame).symm.trans htext.symm⟩

/-! ### Files -/

namespace LayerFile

/-- A path without steps that lead nowhere or back. -/
def IsPlain (name : String) : Prop :=
  ∀ part ∈ parts name, part ≠ "" ∧ part ≠ "." ∧ part ≠ ".."

theorem locate?_of_not_mem {steps : List String} (hne : steps ≠ []) (hback : ".." ∉ steps) :
    locate? steps = some ("/".intercalate steps) := by
  unfold locate?
  split
  · exact absurd rfl hne
  · simp at hback
  · rw [if_neg hback]

theorem intercalate_parts (name : String) : "/".intercalate (parts name) = name := by
  apply String.toList_inj.mp
  rw [String.toList_intercalate, parts, List.map_map]
  simp [Function.comp_def]

theorem parts_ne_nil (name : String) : parts name ≠ [] := by
  rw [parts, ne_eq, List.map_eq_nil_iff]
  exact List.splitOn_ne_nil '/' name.toList

theorem parts_layer (name : String) : parts ("config/" ++ name) = "config" :: parts name := by
  have hchars : ("config/" ++ name).toList = "config".toList ++ '/' :: name.toList := by
    rw [String.toList_append]
    rfl
  rw [parts, hchars, List.splitOn_append_cons_self_of_not_mem (by decide)]
  rfl

theorem steps_layer {name : String} (hname : IsPlain name) :
    steps ("config/" ++ name) = "config" :: parts name := by
  have hkept : ∀ part ∈ parts name, (part ≠ "" && part ≠ ".") = true := by
    intro part hpart
    obtain ⟨hempty, hpoint, -⟩ := hname part hpart
    simp [hempty, hpoint]
  rw [steps, parts_layer, List.filter_cons_of_pos (by decide), List.filter_eq_self.mpr hkept]

theorem intercalate_concat (front : List String) (last text : String) :
    "/".intercalate (front ++ [last ++ text]) = "/".intercalate (front ++ [last]) ++ text := by
  cases front with
  | nil => simp
  | cons first rest =>
      rw [String.intercalate_append_of_ne_nil (by simp) (by simp),
        String.intercalate_append_of_ne_nil (by simp) (by simp)]
      simp [String.append_assoc]

/-- An ending is added to a plain name as it stands. -/
theorem withEnding?_layer {name ending : String} (hname : IsPlain name) (hending : ending ≠ "") :
    withEnding? ("config/" ++ name) ending = some ("config/" ++ name ++ ("." ++ ending)) := by
  obtain ⟨front, last, hparts⟩ : ∃ front last, parts name = front ++ [last] :=
    ⟨_, _, (List.dropLast_concat_getLast (parts_ne_nil name)).symm⟩
  obtain ⟨hempty, -, hback⟩ := hname last (by simp [hparts])
  have hsteps : steps ("config/" ++ name) = "config" :: front ++ [last] := by
    rw [steps_layer hname, hparts, List.cons_append]
  have hfile : last ++ ("." ++ ending) ≠ ".." := by
    intro hsame
    have hlength := congrArg String.length hsame
    have hpoint : ".".length = 1 := rfl
    have hpoints : "..".length = 2 := rfl
    have hlast : last.length ≠ 0 := mt String.length_eq_zero_iff.mp hempty
    have htail : ending.length ≠ 0 := mt String.length_eq_zero_iff.mp hending
    rw [String.length_append, String.length_append] at hlength
    omega
  have hforward : ".." ∉ "config" :: front ++ [last ++ ("." ++ ending)] := by
    rw [List.mem_append, List.mem_cons, List.mem_singleton]
    rintro ((hfirst | hfront) | hlast)
    · exact absurd hfirst (by decide)
    · exact (hname ".." (by simp [hparts, hfront])).2.2 rfl
    · exact hfile hlast.symm
  have hlayer : "/".intercalate ("config" :: front ++ [last]) = "config/" ++ name := by
    rw [List.cons_append, ← hparts, String.intercalate_cons_of_ne_nil (parts_ne_nil name),
      intercalate_parts]
    rfl
  rw [withEnding?, hsteps, List.getLast?_concat, List.dropLast_concat]
  split
  · rename_i hlast
    exact absurd (Option.some.inj hlast) hback
  · rename_i hlast
    cases hlast
  · rename_i found _ hlast
    cases hlast
    rw [String.append_assoc, locate?_of_not_mem (by simp) hforward, intercalate_concat, hlayer]

variable {reader : Reader} {files : String → Option String} {path : String}

/-- No file of a layer is named exactly as the layer, or in another format than TOML. -/
structure OnlyToml (reader : Reader) (files : String → Option String) (path : String) : Prop where
  unnamed : (asNamed? path).bind files = none
  others : ∀ format ∈ reader.formats, format.ending ≠ "toml" →
    (withEnding? path format.ending).bind files = none

/-- The fields of the TOML file of a layer, and none without it. -/
def tomlFields? (files : String → Option String) (path : String) :
    Option (List (String × Document)) :=
  match (withEnding? path "toml").bind files with
  | some content => Document.Toml.read? (withoutMark content)
  | none => some []

theorem found?_of_onlyToml (honly : OnlyToml reader files path) :
    found? reader.formats files path =
      ((withEnding? path "toml").bind files).map fun content => (.toml, content) := by
  rw [found?, honly.unnamed]
  cases htoml : (withEnding? path "toml").bind files with
  | none =>
      refine List.findSome?_eq_none_iff.mpr fun format hformat => ?_
      by_cases hending : format.ending = "toml"
      · rw [hending, htoml, Option.map_none]
      · rw [honly.others format hformat hending, Option.map_none]
  | some content =>
      obtain ⟨-, before, after, hformats, hbefore⟩ := List.find?_eq_some_iff_append.mp reader.toml
      have hnone : before.findSome? (fun format =>
          ((withEnding? path format.ending).bind files).map fun content => (format, content)) =
            none := by
        refine List.findSome?_eq_none_iff.mpr fun format hformat => ?_
        have hending : format.ending ≠ "toml" := by simpa using hbefore format hformat
        rw [honly.others format (by simp [hformats, hformat]) hending, Option.map_none]
      rw [hformats, List.findSome?_append, hnone, Option.none_or, List.findSome?_cons]
      dsimp only [Format.toml]
      rw [htoml]
      rfl

theorem fields?_of_onlyToml (honly : OnlyToml reader files path) :
    fields? reader.formats files path = tomlFields? files path := by
  rw [fields?, found?_of_onlyToml honly, tomlFields?]
  cases (withEnding? path "toml").bind files <;> rfl

end LayerFile

end DiscussionBoard.Settings
