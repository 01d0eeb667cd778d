/-!
# Log filters

A filter is a list of directives, each a level for the events of a source, of which it may mean only
some. An event is shown where the most specific directive about it admits its level, and hidden where
no directive is about it.
-/

namespace DiscussionBoard

/-- From nothing to everything. -/
inductive LogLevel
  | off | error | warn | info | debug | trace
deriving DecidableEq

namespace LogLevel

def all : List LogLevel :=
  [off, error, warn, info, debug, trace]

def name : LogLevel → String
  | off => "off"
  | error => "error"
  | warn => "warn"
  | info => "info"
  | debug => "debug"
  | trace => "trace"

/-- How many kinds of events a level admits. -/
def depth : LogLevel → Nat
  | off => 0
  | error => 1
  | warn => 2
  | info => 3
  | debug => 4
  | trace => 5

def admits (level event : LogLevel) : Bool :=
  event.depth ≤ level.depth

end LogLevel

structure LogDirective where
  /-- What the sources of the events meant start with. -/
  source : String := ""
  /-- A field that the events meant have. -/
  field : Option String := none
  level : LogLevel := .trace
  /-- Whether only events inside certain spans of work are meant. -/
  withinSpans : Bool := false
deriving DecidableEq

namespace LogDirective

/-- Whether a directive is about the events of a source with given fields. -/
def isAbout (directive : LogDirective) (source : String) (fields : List String) : Bool :=
  !directive.withinSpans && directive.source.toList.isPrefixOf source.toList &&
    directive.field.all (· ∈ fields)

/-- Whether the later of two directives about one event goes before the earlier one. A longer source
counts most, then a field, then the name of the field. -/
def overrules (later earlier : LogDirective) : Bool :=
  if later.source = earlier.source then
    match earlier.field, later.field with
    | none, _ => true
    | some _, none => false
    | some earlier, some later => earlier ≤ later
  else earlier.source.length < later.source.length

def moreSpecific (earlier : Option LogDirective) (later : LogDirective) : LogDirective :=
  match earlier with
  | some directive => if later.overrules directive then later else directive
  | none => later

end LogDirective

structure LogFilter where
  directives : List LogDirective
deriving DecidableEq

namespace LogFilter

/-- Without any directive only errors are shown. -/
def ofDirectives : List LogDirective → LogFilter
  | [] => ⟨[{ level := .error }]⟩
  | directives => ⟨directives⟩

/-- The directive that decides about the events of a source with given fields. -/
def deciding? (filter : LogFilter) (source : String) (fields : List String) :
    Option LogDirective :=
  (filter.directives.filter (·.isAbout source fields)).foldl
    (fun earlier later => some (LogDirective.moreSpecific earlier later)) none

def shows (filter : LogFilter) (source : String) (fields : List String) (event : LogLevel) :
    Bool :=
  (filter.deciding? source fields).any fun directive => directive.level.admits event

end LogFilter

end DiscussionBoard
