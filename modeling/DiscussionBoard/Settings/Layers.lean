import DiscussionBoard.Document
import DiscussionBoard.Settings.Path

/-!
# Layers of settings

A source of settings is a list of entries, each a path and a value. Laying a source over earlier
ones replaces the values it sets and leaves all others.
-/

namespace DiscussionBoard.Settings

/-- The fields of a table, and none where there is no table. -/
def fieldsOf : Option Document → List (String × Document)
  | some (.table fields) => fields
  | _ => []

mutual

/-- Lays a value over an earlier one. Tables merge field by field. -/
def layOver (earlier : Option Document) : Document → Document
  | .table fields => .table (layFields (fieldsOf earlier) fields)
  | value => value

def layFields (earlier : List (String × Document)) :
    List (String × Document) → List (String × Document)
  | [] => earlier
  | (name, value) :: rest =>
    layFields (Document.assign name (layOver (Document.lookup name earlier) value) earlier) rest

end

/-- The items of a list, and none where there is no list. -/
def itemsOf : Option Document → List Document
  | some (.list items) => items
  | _ => []

/-- A list with the place that an index means, with nulls put in where it lies outside. -/
def reach (index : Int) (items : List Document) : List Document × Nat :=
  if 0 ≤ index then
    (items ++ List.replicate (index.toNat + 1 - items.length) .null, index.toNat)
  else if index.natAbs ≤ items.length then (items, items.length - index.natAbs)
  else (List.replicate (index.natAbs - items.length) .null ++ items, 0)

theorem reach_lt (index : Int) (items : List Document) :
    (reach index items).2 < (reach index items).1.length := by
  unfold reach
  split
  · simp only [List.length_append, List.length_replicate]
    omega
  · split
    · show items.length - index.natAbs < items.length
      omega
    · simp only [List.length_append, List.length_replicate]
      omega

/-- Lays a value over what steps from an earlier value lead to. What is no table or no list where a
step needs one is replaced by it. -/
def layAt (value : Document) : List Step → Option Document → Document
  | [], earlier => layOver earlier value
  | .field name :: steps, earlier =>
    let fields := fieldsOf earlier
    .table (Document.assign name (layAt value steps (Document.lookup name fields)) fields)
  | .item index :: steps, earlier =>
    let (items, place) := reach index (itemsOf earlier)
    .list (items.set place (layAt value steps items[place]?))

/-- Lays the entries of a source over earlier fields. An entry whose key is no path sets nothing. -/
def overlay (fields : List (String × Document)) (entries : List (String × Document)) :
    List (String × Document) :=
  entries.foldl (fun fields entry =>
    match Path.ofString? entry.1 with
    | some path =>
      let earlier := Document.lookup path.root fields
      Document.assign path.root (layAt entry.2 path.steps earlier) fields
    | none => fields) fields

def variableLead : List Char := "peerforum__".toList

/-- Two underscores separate the names in a variable. -/
def pointed : List Char → List Char
  | '_' :: '_' :: rest => '.' :: pointed rest
  | c :: rest => c :: pointed rest
  | [] => []

/-- The path that a variable sets, in any case, if it is a setting. -/
def variableKey? (name : String) : Option String :=
  let lower := name.toList.map Char.toLower
  if variableLead.isPrefixOf lower then
    some (String.ofList (pointed (lower.drop variableLead.length)))
  else none

/-- What the settings among variables give. Of two with one key the later counts. -/
def variableEntries (vars : List (String × String)) : List (String × Document) :=
  vars.foldl (fun fields entry =>
    match variableKey? entry.1 with
    | some key => Document.assign key (.text entry.2) fields
    | none => fields) []

end DiscussionBoard.Settings
