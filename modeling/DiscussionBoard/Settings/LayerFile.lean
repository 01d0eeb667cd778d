import DiscussionBoard.Document.Json
import DiscussionBoard.Document.Toml

/-!
# Files of layers

A layer is named by a path with or without the ending of its file. The file that has exactly this
name comes first, and its ending tells its format; else the endings of the known formats are tried.
-/

namespace DiscussionBoard.Settings

/-- A format of layer files, told by the ending of their names. -/
structure Format where
  ending : String
  read? : String → Option (List (String × Document))

namespace Format

def toml : Format := ⟨"toml", Document.Toml.read?⟩

/-- The root of a JSON file must be a table. -/
def jsonFields? (content : String) : Option (List (String × Document)) :=
  match Document.Json.read? content with
  | some (.table fields) => some fields
  | _ => none

def json : Format := ⟨"json", jsonFields?⟩

end Format

namespace LayerFile

/-- The file that steps from the working directory lead to. Only the folder of the layers is known to
be there, so that no other can be left again. -/
def locate? : List String → Option String
  | [] => none
  | "config" :: ".." :: rest => locate? rest
  | steps => if ".." ∈ steps then none else some ("/".intercalate steps)

/-- The parts of a path between its slashes. -/
def parts (path : String) : List String :=
  (path.toList.splitOn '/').map String.ofList

/-- The steps of a path. Empty parts and points lead nowhere. -/
def steps (path : String) : List String :=
  (parts path).filter fun step => step ≠ "" && step ≠ "."

/-- Whether a path ends as only that of a folder may. -/
def isFolder (path : String) : Bool :=
  (parts path).getLast?.any fun step => step = "" || step = "."

def asNamed? (path : String) : Option String :=
  if isFolder path then none else locate? (steps path)

/-- The file whose name has an ending added. -/
def withEnding? (path ending : String) : Option String :=
  match (steps path).getLast? with
  | some ".." | none => none
  | some name => locate? ((steps path).dropLast ++ [name ++ "." ++ ending])

/-- What follows the last point of a name, unless that is its first character. -/
def ending (name : String) : String :=
  let tail := name.toList.reverse.takeWhile (· ≠ '.')
  if tail.length + 1 < name.length then String.ofList tail.reverse else ""

/-- The files that a layer can be read from. -/
def candidates (formats : List Format) (path : String) : List String :=
  (asNamed? path).toList ++ formats.filterMap fun format => withEnding? path format.ending

def withoutMark (content : String) : String :=
  String.ofList (Document.Toml.dropMark content.toList)

/-- The file of the first format for which there is one, with its format. -/
def found? (formats : List Format) (files : String → Option String) (path : String) :
    Option (Format × String) :=
  match (asNamed? path).bind files with
  | some content =>
    (formats.find? fun format => format.ending = ending ((steps path).getLast?.getD "")).map
      fun format => (format, content)
  | none => formats.findSome? fun format =>
      ((withEnding? path format.ending).bind files).map fun content => (format, content)

/-- The fields of a layer. A missing file counts as empty, as does one of a format that is not known. -/
def fields? (formats : List Format) (files : String → Option String) (path : String) :
    Option (List (String × Document)) :=
  match found? formats files path with
  | some (format, content) => format.read? (withoutMark content)
  | none => some []

end LayerFile

end DiscussionBoard.Settings
