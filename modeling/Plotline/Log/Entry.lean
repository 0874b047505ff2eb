import Plotline.Data.Json
import Plotline.Table

/-!
# Log entries

* `Level`: how much an event matters.
* `Event`: something that happened, with its fields.
* `Entry`: the fields of an event in the order in which they are written; `Entry.line?`: what is written of them.
-/

namespace Plotline.Log

/-- How much an event matters. -/
inductive Level where
  | debug
  | info
  | warning
  | error
  | critical
deriving DecidableEq, Repr

namespace Level

def weight : Level → Nat
  | debug => 10
  | info => 20
  | warning => 30
  | error => 40
  | critical => 50

def name : Level → String
  | debug => "DEBUG"
  | info => "INFO"
  | warning => "WARNING"
  | error => "ERROR"
  | critical => "CRITICAL"

/-- Whether what happens at a level passes a threshold. -/
def passes (l threshold : Level) : Bool := decide (threshold.weight ≤ l.weight)

end Level

/-- Something that happened. -/
structure Event where
  level : Level
  /-- The part of the program where it happened. -/
  logger : String
  /-- What happened. -/
  name : String
  fields : Table String Data := ∅

/-- The fields of something that happened, in the order in which they are written. -/
abbrev Entry := Table String Data

/-- The name under which a part of the program logs; what has no name logs for the whole. -/
def loggerName (logger : String) : String := if logger.isEmpty then "root" else logger

def Entry.head (level : Level) (logger message : String) : Entry :=
  Table.ofList [("level", .text level.name), ("logger", .text (loggerName logger)), ("message", .text message)]

/-- The fields of an event, and the name of the project if it has no such field. -/
def Event.bound (e : Event) (project : Option Data) : Table String Data :=
  match project with
  | some p => e.fields.insertNew "project" p
  | none => e.fields

/-- The entry of an event. A field for the level or the time is left out; one of another name that is already there
takes its place. -/
def Entry.ofEvent (project : Option Data) (e : Event) : Entry :=
  ((e.bound project).filter fun k _ => k ≠ "level" && k ≠ "timestamp").entries.foldl (fun t f => t.insert f.1 f.2)
    (Entry.head e.level e.logger e.name)

/-- What is written of an entry, if all its fields can be written. -/
def Entry.line? (e : Entry) : Option Entry := if e.values.all Json.writable then some (e.map Json.plain) else none

end Plotline.Log
