import DiscussionBoard.Seeding.Log
import Std.Time.DateTime.Timestamp

/-!
# The command line

Seeds a forum as the settings in the working directory and the variables of the process say, and
logs what its reader sees. An argument names a variable whose filter overrides that of the settings.
-/

namespace DiscussionBoard.CommandLine

def readText? (name : String) : IO (Option String) := do
  try
    let content ← IO.FS.readFile name
    return some content
  catch _ => return none

/-- The name and the value of a variable, from their common text. -/
def assignment? (entry : String) : Option (String × String) :=
  match entry.splitOn "=" with
  | name :: first :: rest => some (name, "=".intercalate (first :: rest))
  | _ => none

def readVariables : IO (List (String × String)) := do
  let entries ← readText? "/proc/self/environ"
  return ((entries.getD "").splitOn "\x00").filterMap assignment?

def textOf (texts : List (String × Option String)) (name : String) : Option String :=
  (texts.find? fun text => text.1 = name).bind (·.2)

def readTexts (names : List String) : IO (List (String × Option String)) :=
  names.mapM fun name => do
    let text ← readText? name
    return (name, text)

/-- The variables file first, since it can name the environment whose layer is read. -/
def readFiles (vars : List (String × String)) : IO (String → Option String) := do
  let first ← readTexts [".env"]
  let layers ← readTexts (Settings.layerFiles (Settings.environment (textOf first) vars))
  return textOf (first ++ layers)

def readClock : IO Instant := do
  let now := (← Std.Time.Timestamp.now).val
  let nanos := now.nano.val.toNat % 1000000000
  return ⟨now.second.val, nanos, by omega⟩

/-- Ids that follow each other from a random one on, so that no two are equal. -/
def drawNames : IO Seeding.Names := do
  let bytes ← IO.getRandomBytes 16
  let start := bytes.toList.foldl (fun number byte => number * 256 + byte.toNat) 0
  return fun place => Id.ofNat (start + place)

def report (now : Instant) (outcome : Seeding.Outcome) : IO Unit :=
  match outcome with
  | .refused fault => IO.eprintln ("Error: " ++ fault.message?.getD "failed to load settings")
  | .brokenFilter => IO.eprintln "Error: the filter is cut inside a character"
  | .outOfReach => IO.eprintln "Error: the discussions would start too early"
  | .failed fault => IO.eprintln ("Error: " ++ fault.message)
  | .reported format _ => outcome.log.forM fun event => IO.println (event.line format now)

end DiscussionBoard.CommandLine

open DiscussionBoard CommandLine in
def main (arguments : List String) : IO UInt32 := do
  let vars ← readVariables
  let files ← readFiles vars
  let now ← readClock
  let names ← drawNames
  let outcome := Seeding.outcome arguments.head? files vars names now
  report now outcome
  return UInt32.ofNat outcome.exitCode
