import Plotline.Files.Path
import Plotline.Log.Entry
import Plotline.Log.Template

/-!
# Logging

* `Handler`: what takes entries: a console, or a file whose stream is open or closed.
* `LogFiles`: what has been written to files.
* `Logging`: the handlers, of which some are at the root and one may be held to be closed, the threshold, the bound
  project, and what has been shown and written.
* `Logging.configure`, `Logging.event`, `Logging.record`, `Logging.bind`, `Logging.close`: what can happen.
* `Step`, `Logging.step`, `Logging.run`: the same as data, one or many.
-/

namespace Plotline.Log
open Files

/-! ## Handlers and files -/

/-- What takes entries. -/
inductive Handler where
  /-- Shows what passes a level. -/
  | console (level : Level)
  /-- Adds everything to a file. An entry that comes when the stream is closed opens it again. -/
  | file (place : Place) (isOpen : Bool)
deriving DecidableEq

namespace Handler

/-- Only what passes this level reaches the handler. -/
def level : Handler → Level
  | console l => l
  | file _ _ => .debug

/-- The handler after it has been closed; a console has nothing to close. -/
def closed : Handler → Handler
  | console l => console l
  | file place _ => file place false

end Handler

/-- What has been written to files, by their places. -/
structure LogFiles where
  /-- The current folder. -/
  here : Place := []
  lines : Table Place (List Entry) := ∅

namespace LogFiles

def linesAt (w : LogFiles) (place : Place) : List Entry := w.lines.getD place []

def get? (w : LogFiles) (f : Path) : Option (List Entry) := w.lines.get? (f.locate w.here)

def create (w : LogFiles) (place : Place) : LogFiles := { w with lines := w.lines.insertNew place [] }

def append (w : LogFiles) (place : Place) (line : Entry) : LogFiles :=
  { w with lines := w.lines.update place [] (· ++ [line]) }

end LogFiles

/-! ## State -/

/-- Where events go, and what has been written. In the beginning there is a console for warnings and no file. -/
structure Logging where
  /-- All handlers that were ever made. The number of a handler is its place in the list. -/
  made : List Handler := [.console .warning]
  /-- The numbers of the handlers at the root, in the order in which they take entries. -/
  root : List Nat := [0]
  /-- The number of the handler that closing the log file would close. -/
  held : Option Nat := none
  /-- The current log file. -/
  current : Option Path := none
  /-- Only what passes this goes to the handlers. -/
  threshold : Level := .warning
  /-- The console breaks off at such an entry, which then goes no further. -/
  breaksAt : Entry → Bool := fun _ => false
  /-- The name of the project that is at work. -/
  project : Option Data := none
  shown : List Entry := []
  written : LogFiles := {}

namespace Logging

def attached (s : Logging) : List Handler := s.root.filterMap (s.made[·]?)

def handlers (s : Logging) : List Level := s.attached.map Handler.level

/-- The current log file. It is none after it has been closed, though it still takes events. -/
def currentFile? (s : Logging) : Option Path := s.current

def entriesOf (s : Logging) (f : Path) : List Entry := (s.written.get? f).getD []

/-! ## Configuration -/

/-- What the console shows for a number of requests for more: warnings, then also what is going on, then everything. -/
def consoleLevel (verbosity : Int) : Level :=
  if verbosity = 0 then .warning else if verbosity = 1 then .info else .debug

def shut (s : Logging) (n : Nat) : Logging := { s with made := s.made.modify n Handler.closed }

/-- Closes the handler that is held, if there is one, and forgets it with its file. -/
def close (s : Logging) : Logging :=
  { (match s.held with
      | some n => s.shut n
      | none => s) with held := none, current := none }

/-- Opens a file for a new handler, which is held from then on. -/
def openFile (s : Logging) (f : Path) : Logging :=
  let place := f.locate s.written.here
  { s with
    made := s.made ++ [.file place true]
    held := some s.made.length
    current := some f
    written := s.written.create place }

/-- Puts handlers at the root in the place of those that are there, which are closed. -/
def install (s : Logging) (numbers : List Nat) (threshold : Level) : Logging :=
  { s.root.foldl shut s with root := numbers, threshold }

/-- Sends events to the console and to a file, if one is named. A file takes everything. -/
def configure (s : Logging) (verbosity : Int) (file : Option Path) : Logging :=
  let closed := s.close
  let console := closed.made.length
  let withConsole : Logging := { closed with made := closed.made ++ [.console (consoleLevel verbosity)] }
  let opened := match file with
    | some f => withConsole.openFile f
    | none => withConsole
  opened.install (console :: opened.held.toList) (if 0 < verbosity ∨ file.isSome then .debug else .warning)

/-! ## Events -/

/-- A file handler takes an entry: its stream is opened if it is closed, and what is written of the entry is added,
unless it cannot be written. -/
def write (s : Logging) (n : Nat) (place : Place) (e : Entry) : Logging :=
  let opened := { s with made := s.made.set n (.file place true) }
  match e.line? with
  | some line => { opened with written := s.written.append place line }
  | none => opened

/-- Handlers take an entry one after another, each if the entry passes its level. -/
def dispatch (level : Level) (e : Entry) : List Nat → Logging → Logging
  | [], s => s
  | n :: rest, s =>
    match s.made[n]? with
    | some (.console l) =>
      if level.passes l then
        if s.breaksAt e then s else dispatch level e rest { s with shown := s.shown ++ [e] }
      else dispatch level e rest s
    | some (.file place _) => dispatch level e rest (s.write n place e)
    | none => dispatch level e rest s

/-- Sends an entry to the handlers at the root, if it passes the threshold. -/
def add (s : Logging) (level : Level) (e : Entry) : Logging :=
  if level.passes s.threshold then dispatch level e s.root s else s

/-- Logs an event; the project at work is added to its fields. A logger that was in use before has kept the threshold
of that time. -/
def event (s : Logging) (e : Event) (kept : Option Level := none) : Logging :=
  if e.level.passes (kept.getD s.threshold) then s.add e.level (Entry.ofEvent s.project e) else s

/-- Logs a message that is a template with data; without the right data it is not logged. -/
def record (s : Logging) (logger : String) (level : Level) (template : String) (args : List Data) : Logging :=
  match Template.fill? template args with
  | some message => s.add level (Entry.head level logger message)
  | none => s

/-- Names the project at work. -/
def bind (s : Logging) (project : Data) : Logging := { s with project := some project }

end Logging

/-! ## Runs -/

/-- What can happen to logging. -/
inductive Step where
  | configure (verbosity : Int) (file : Option Path)
  | event (e : Event) (kept : Option Level := none)
  | record (logger : String) (level : Level) (template : String) (args : List Data)
  | bind (project : Data)
  | close

def Logging.step (s : Logging) : Step → Logging
  | .configure v f => s.configure v f
  | .event e kept => s.event e kept
  | .record logger level template args => s.record logger level template args
  | .bind p => s.bind p
  | .close => s.close

def Logging.run (s : Logging) (steps : List Step) : Logging := steps.foldl Logging.step s

end Plotline.Log
