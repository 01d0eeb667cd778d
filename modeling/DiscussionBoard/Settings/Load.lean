import DiscussionBoard.Settings.Convert
import DiscussionBoard.Settings.Dotenv
import DiscussionBoard.Settings.LayerFile
import DiscussionBoard.Settings.Layers

/-!
# Loading settings

Settings are taken from a default file, a file for the environment, and variables, each laid over
the ones before. Missing files are fine. The environment is named by a variable, which like all
others may come from a `.env` file.
-/

namespace DiscussionBoard.Settings

/-- The variables that count, those from the `.env` file included. -/
def environment (files : String → Option String) (vars : List (String × String)) :
    List (String × String) :=
  match files ".env" with
  | some content => Dotenv.load vars content
  | none => vars

def environmentName (vars : List (String × String)) : String :=
  match vars.find? fun entry => entry.1 = "PEERFORUM_ENV" with
  | some entry => entry.2
  | none => "development"

def defaultLayer : String := "config/default"

def environmentLayer (vars : List (String × String)) : String :=
  "config/" ++ environmentName vars

/-- An order in which the entries of a source come up. -/
structure Arrangement where
  entries : List (String × Document) → List (String × Document)
  perm : ∀ source, (entries source).Perm source

def Arrangement.asGiven : Arrangement :=
  ⟨id, fun _ => .refl _⟩

/-- What may differ between readers of the sources: which formats of files they know besides TOML, in
which order they look for them, and in which order they take the entries of each source. -/
structure Reader where
  formats : List Format
  toml : formats.find? (fun format => format.ending = "toml") = some .toml
  default : Arrangement
  special : Arrangement
  vars : Arrangement

namespace Reader

/-- Knows TOML and JSON, and takes all in the order in which it is given. -/
def plain : Reader where
  formats := [.toml, .json]
  toml := rfl
  default := .asGiven
  special := .asGiven
  vars := .asGiven

/-- The merged fields of all sources. -/
def sources? (reader : Reader) (files : String → Option String) (vars : List (String × String)) :
    Option (List (String × Document)) := do
  let vars := environment files vars
  let default ← LayerFile.fields? reader.formats files defaultLayer
  let special ← LayerFile.fields? reader.formats files (environmentLayer vars)
  let layers := overlay (overlay [] (reader.default.entries default)) (reader.special.entries special)
  some (overlay layers (reader.vars.entries (variableEntries vars)))

def load (reader : Reader) (files : String → Option String) (vars : List (String × String)) :
    Except SettingsFault Settings :=
  match (reader.sources? files vars).bind ofFields? with
  | some settings => settings.validate
  | none => .error .unreadable

end Reader

/-- The files that the layers can be read from. -/
def layerFiles (vars : List (String × String)) : List String :=
  [defaultLayer, environmentLayer vars].flatMap (LayerFile.candidates Reader.plain.formats)

def load : (files : String → Option String) → (vars : List (String × String)) →
    Except SettingsFault Settings :=
  Reader.plain.load

end DiscussionBoard.Settings
