import Std.Time.DateTime.Timestamp
import Plotline.CommandLine.Job
import Plotline.Log.Time

/-! The program: reads the files that a command line is about, runs it, prints what comes out and writes the log. -/

namespace Plotline.CommandLine
open Files

def placeNamed (s : String) : Place := (Path.ofText s).names

partial def readFolder (t : FileTree) (place : Place) (spelling : String) : IO FileTree := do
  let mut t := { t with folders := place :: t.folders }
  for entry in ← (← IO.FS.realPath spelling).readDir do
    if let some name := FileName.ofText? entry.fileName then
      let inner := place ++ [name]
      if ← entry.path.isDir then t ← readFolder t inner entry.path.toString
      else if name.isScript || name = configName then
        t := { t with files := t.files.insert inner (← IO.FS.readBinFile entry.path).toList }
  return t

/-- Adds what a path leads to, and the folders on its way, to a tree. -/
def readPath (t : FileTree) (p : Path) (contents : Bool) : IO FileTree := do
  let mut t := t
  for k in List.range (p.names.length + 1) do
    let way : Path := { p with names := p.names.take k }
    let place := way.locate t.here
    let last := k = p.names.length
    let found ← (IO.FS.realPath way.toText).toBaseIO
    match found with
    | .error _ => pure ()
    | .ok real =>
      if ← real.isDir then
        if last && contents then t ← readFolder t place real.toString
        else t := { t with folders := place :: t.folders }
      else if ← real.pathExists then
        let content ← if last && contents then IO.FS.readBinFile real else pure ByteArray.empty
        t := { t with files := t.files.insertNew place content.toList }
  return t

def writeLog (file : Path) (entries : List Log.Entry) : IO Unit := do
  IO.FS.createDirAll file.parent.toText
  let handle ← IO.FS.Handle.mk file.toText .append
  for e in entries do
    let now ← Std.Time.Timestamp.now
    let time := Log.isoTime now.val.second.val (now.val.nano.val.toNat / 1000)
    let line := Data.ofTable (("timestamp", .text time) :: e.entries)
    handle.putStrLn (Json.compact Job.layoutJson line)

def readTree (words : List String) (environment : Option String) : IO FileTree := do
  let here := placeNamed (← IO.currentDir).toString
  let mut t : FileTree := { here }
  if let some inv := Invocation.ofWords? environment words then
    if let some log := inv.log then t ← readPath t log false
    if let some path := inv.command.bind Command.path? then t ← readPath t path true
  return t

def usage : String :=
  "Usage: rpygraph [-v] [--log FILE] COMMAND PATH\nCommands: " ++ ", ".intercalate Command.names

end Plotline.CommandLine

open Plotline Plotline.CommandLine in
def main (words : List String) : IO UInt32 := do
  let environment ← IO.getEnv "RPYGRAPH_MAX_ROUTES"
  let outcome := run (← readTree words environment) environment words
  match outcome.output with
  | some text => IO.print text
  | none => IO.eprintln usage
  for e in outcome.logging.shown do
    IO.eprintln (Json.compact Job.layoutJson (.ofTable e.entries))
  for (place, lines) in outcome.logging.written.lines.entries do
    writeLog { root := "/", names := place } lines
  return outcome.exitCode.toUInt32
