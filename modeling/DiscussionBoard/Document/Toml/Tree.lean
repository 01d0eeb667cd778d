import DiscussionBoard.Document

/-!
# TOML tables under construction

Which tables may still be added to depends on how they came to be, so they keep their origin until
the whole document is read.
-/

namespace DiscussionBoard.Document.Toml

inductive Origin
  /-- By the header of a table inside it. -/
  | implied
  | header
  /-- By a dotted key. -/
  | dotted
deriving DecidableEq

inductive Node
  | value (document : Document)
  | table (origin : Origin) (fields : List (String × Node))
  /-- The tables of one repeated header, in order. -/
  | tables (items : List (List (String × Node)))

abbrev Fields := List (String × Node)

def find? (key : String) (fields : Fields) : Option Node :=
  (fields.find? fun field => field.1 = key).map (·.2)

def replace (key : String) (node : Node) (fields : Fields) : Fields :=
  fields.map fun field => if field.1 = key then (key, node) else field

/-- Changes the table that the keys of a header lead to. A repeated header stands for its last
table. -/
def alter (change : Fields → Option Fields) : List String → Fields → Option Fields
  | [], fields => change fields
  | key :: path, fields =>
    match find? key fields with
    | none => (alter change path []).map fun inner => fields ++ [(key, .table .implied inner)]
    | some (.value _) => none
    | some (.table origin inner) =>
      (alter change path inner).map fun inner => replace key (.table origin inner) fields
    | some (.tables items) =>
      (alter change path (items.getLast?.getD [])).map fun inner =>
        replace key (.tables (items.dropLast ++ [inner])) fields

/-- Changes the table that the front keys of a dotted key lead to. Tables with a header of their own
are closed to dotted keys. -/
def alterDotted (change : Fields → Option Fields) : List String → Fields → Option Fields
  | [], fields => change fields
  | key :: path, fields =>
    match find? key fields with
    | none => (alterDotted change path []).map fun inner => fields ++ [(key, .table .dotted inner)]
    | some (.value _) => none
    | some (.table origin inner) =>
      if origin = .header then none
      else (alterDotted change path inner).map fun inner =>
        replace key (.table origin inner) fields
    | some (.tables items) =>
      if path = [] then none
      else (alterDotted change path (items.getLast?.getD [])).map fun inner =>
        replace key (.tables (items.dropLast ++ [inner])) fields

/-- Adds a value under a dotted key that is not there yet. -/
def addValue (path : List String) (key : String) (document : Document) (fields : Fields) :
    Option Fields :=
  alterDotted (fun fields =>
    if (find? key fields).isSome then none else some (fields ++ [(key, .value document)])) path
    fields

/-- Opens the table of a header, once. -/
def openTable (path : List String) (key : String) (fields : Fields) : Option Fields :=
  alter (fun fields =>
    match find? key fields with
    | none => some (fields ++ [(key, .table .header [])])
    | some (.table .implied inner) => some (replace key (.table .header inner) fields)
    | _ => none) path fields

/-- Opens one more table of a repeated header. -/
def openItem (path : List String) (key : String) (fields : Fields) : Option Fields :=
  alter (fun fields =>
    match find? key fields with
    | none => some (fields ++ [(key, .tables [[]])])
    | some (.tables items) => some (replace key (.tables (items ++ [[]])) fields)
    | _ => none) path fields

mutual

def Node.toDocument : Node → Document
  | .value document => document
  | .table _ fields => .table (toFields fields)
  | .tables items => .list (toItems items)

def toFields : List (String × Node) → List (String × Document)
  | [] => []
  | (key, node) :: rest => (key, node.toDocument) :: toFields rest

def toItems : List (List (String × Node)) → List Document
  | [] => []
  | fields :: rest => .table (toFields fields) :: toItems rest

end

end DiscussionBoard.Document.Toml
