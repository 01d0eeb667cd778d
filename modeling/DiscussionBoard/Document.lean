/-!
# Documents

Structured data as it is read from a file or a message: scalars, lists, and tables of named
documents.
-/

namespace DiscussionBoard

inductive Document
  | null
  | bool (value : Bool)
  | int (value : Int)
  | float (value : Float)
  | text (value : String)
  | list (items : List Document)
  | table (fields : List (String × Document))
deriving Inhabited

namespace Document

/-- The value of a name among named fields. -/
def lookup (name : String) (fields : List (String × Document)) : Option Document :=
  (fields.find? fun field => field.1 = name).map (·.2)

/-- Sets the value of a name, in the place of an earlier value. -/
def assign (name : String) (value : Document) : List (String × Document) → List (String × Document)
  | [] => [(name, value)]
  | field :: rest =>
    if field.1 = name then (name, value) :: rest else field :: assign name value rest

/-- The value of a field of a table. -/
def field? (document : Document) (name : String) : Option Document :=
  match document with
  | table fields => lookup name fields
  | _ => none

theorem lookup_assign_self (name : String) (value : Document) (fields : List (String × Document)) :
    lookup name (assign name value fields) = some value := by
  induction fields with
  | nil => simp [assign, lookup]
  | cons field rest ih =>
    by_cases hname : field.1 = name
    · simp [assign, hname, lookup]
    · simpa [assign, hname, lookup] using ih

theorem lookup_assign_of_ne {name other : String} (hother : other ≠ name) (value : Document)
    (fields : List (String × Document)) :
    lookup other (assign name value fields) = lookup other fields := by
  induction fields with
  | nil => simp [assign, lookup, Ne.symm hother]
  | cons field rest ih =>
    by_cases hname : field.1 = name
    · subst hname
      simp [assign, lookup, Ne.symm hother]
    · rw [assign, if_neg hname, lookup, lookup, List.find?_cons, List.find?_cons]
      by_cases hfield : field.1 = other
      · simp [hfield]
      · simpa [hfield, lookup] using ih

end Document

end DiscussionBoard
