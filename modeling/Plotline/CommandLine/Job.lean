import Plotline.CommandLine.Arguments
import Plotline.Data.Json
import Plotline.Diagram.Dot
import Plotline.Diagram.Mermaid
import Plotline.Log.Progress
import Plotline.Log.State
import Plotline.Project.Loading
import Plotline.Text.Grid
import Plotline.Text.Screen

/-!
# Running a command

* `Job`: what prints lines, logs events and may break off with an exit code.
* `Job.loadProject`, `Job.analysis`, `Job.routes`: the stages that commands share.
* `Command.job`: what a command does.
* `Outcome`, `run`: what comes out of a command line.
-/

namespace Plotline.CommandLine
open Files

/-- What has been printed and logged. -/
structure Progress where
  output : String := ""
  logging : Log.Logging := {}

/-- Prints lines and logs events, and may break off with an exit code. -/
abbrev Job (α : Type) := ExceptT Nat (StateM Progress) α

namespace Job

def write (s : String) : Job Unit := modify fun p => { p with output := p.output ++ s ++ "\n" }

def print (s : String) : Job Unit := write (Text.Screen.shown s)

def log (e : Log.Event) : Job Unit := modify fun p => { p with logging := p.logging.event e }

def stop : Job PUnit := throw 1

def fail {α : Type} (message : String) : Job α := do
  print ("Error: " ++ message)
  throw 1

/-! ## Stages -/

/-- The settings for a path: those of a folder, or the ones by default for a single file. -/
def loadSettings (t : FileTree) (p : Path) : Job Settings := do
  match t.look p with
  | .folder _ =>
    match t.loadSettings p with
    | .ok s => return s
    | .error e => fail ("Invalid configuration: " ++ e.message)
  | _ => return {}

/-- The blocks and settings of a project; `cap` replaces the cap on routes. -/
def loadProject (t : FileTree) (p : Path) (cap : Option Int) : Job (List Block × Settings) := do
  match t.loadBlocks p with
  | .error (.notFound p) => fail (LoadError.notFound p).message
  | .error e => fail ("Invalid configuration: " ++ e.message)
  | .ok scripts =>
    log (.ofScripts scripts.root scripts.blocks)
    let settings ← loadSettings t p
    let analysis ← match (cap.map settings.analysis.withCap).getD (.ok settings.analysis) with
      | .ok a => pure a
      | .error e => fail ("Invalid configuration: " ++ e.message)
    modify fun s => { s with logging := s.logging.bind settings.name }
    if scripts.blocks.isEmpty then print ("Warning: No .rpy files found under " ++ p.toText)
    return (scripts.blocks, { settings with analysis })

/-- The blocks that are looked at before one meets an ignored suffix that is no text, and whether there is one. -/
def beforeStumble (settings : AnalysisSettings) (blocks : List Block) : List Block × Bool :=
  (blocks.takeWhile fun b => !settings.stumbles b.path, blocks.any fun b => settings.stumbles b.path)

def analysis (blocks : List Block) (settings : AnalysisSettings) : Job Analysis := do
  let (seen, stumbled) := beforeStumble settings blocks
  (seen.filter fun b => settings.ignores b.path).forM fun b => log (.ofSkipped b)
  if stumbled then stop
  let a := Analysis.ofBlocks blocks settings
  log (.ofTables a.tables)
  log (.ofReferences a.references)
  if settings.hasCompoundPath then stop
  log (.ofRoles a.roles)
  log (.ofUsage a.usage)
  log (.ofAnalysis blocks a)
  return a

def routes (blocks : List Block) (settings : Settings) (a : Analysis) : Job RouteAnalysis := do
  let r := RouteAnalysis.ofAnalysis blocks a settings
  (Log.Event.ofRoutes settings.analysis r).forM log
  return r

/-! ## Output -/

/-- JSON of analyses: no plus sign in exponents, and nothing for what is no finite number. -/
def analysisJson : Json.Format :=
  { asciiOnly := false, floats := { lowest := -4, plus := "", exponentDigits := 1 }, nan := "null",
    infinity := fun _ => "null" }

/-- JSON of places: in ASCII, with words for what is no finite number. -/
def layoutJson : Json.Format :=
  { asciiOnly := true, floats := displayStyle, nan := "NaN",
    infinity := fun negative => if negative then "-Infinity" else "Infinity" }

def summary (blocks : List Block) (a : Analysis) : Text.Grid :=
  let rows : List (String × Nat) := [
    ("Blocks", blocks.length), ("Labels", a.tables.labels.size), ("Jumps", a.jumpCount),
    ("Links", a.references.links.length), ("Unresolved", Number.total (a.references.invalid.values.map List.length)),
    ("Story blocks", a.roles.story.size), ("Screen blocks", a.roles.screenOnly.size),
    ("Config blocks", a.roles.config.size), ("Root blocks", a.roles.roots.size),
    ("Leaf blocks", a.roles.leaves.size), ("Branching blocks", a.roles.branching.size),
    ("Characters", a.tables.characters.size), ("Variables", a.tables.vars.size),
    ("Screens", a.tables.screens.size), ("Images", a.tables.images.size)]
  { title := "Analysis Summary", columns := [⟨"Metric", false⟩, ⟨"Count", true⟩]
    rows := rows.map fun r => [r.1, toString r.2] }

def routeGrid (routes : List Route) : Text.Grid :=
  { title := "Routes (" ++ toString routes.length ++ ")"
    columns := [⟨"#", true⟩, ⟨"Color", false⟩, ⟨"Links", true⟩]
    rows := routes.map fun r => [toString r.id, "■ " ++ r.color, toString r.links.size] }

def characterGrid (stats : List CharacterStats) : Text.Grid :=
  { title := "Characters"
    columns := [⟨"Tag", false⟩, ⟨"Name", false⟩, ⟨"Lines", true⟩, ⟨"Words", true⟩]
    rows := stats.map fun s => [s.tag, s.name, toString s.lines, toString s.words] }

def printGrid (g : Text.Grid) : Job Unit := g.lines.forM write

def printAnalysis (blocks : List Block) (a : Analysis) : Job Unit := do
  print ""
  printGrid (summary blocks a)
  a.references.invalid.entries.forM fun (b, targets) =>
    targets.forM fun target => print ("! " ++ b ++ ": unresolved target " ++ target)
  print ""

def printRoutes (r : RouteAnalysis) : Job Unit := do
  print ""
  print (toString r.nodes.length ++ " labels, " ++ toString r.links.length ++ " route links")
  printGrid (routeGrid r.routes)
  print ""

def diagnosticLine (d : Diagnostic) : String :=
  let place := if d.block.isEmpty then "" else " (" ++ d.block ++ ")"
  (if d.isWarning then "⚠ " else "ℹ ") ++ d.code ++ ": " ++ d.message ++ place

def printReport (settings : Settings) (r : Report) : Job Unit := do
  print ""
  print ("Project: " ++ settings.name.display)
  print ("  " ++ toString r.blocks ++ " blocks, " ++ toString r.labels ++ " labels, " ++ toString r.jumps ++
    " jumps, " ++ toString r.links ++ " links")
  print ("  story " ++ toString r.roles.story.size ++ " / screen " ++ toString r.roles.screenOnly.size ++
    " / config " ++ toString r.roles.config.size)
  print ("  " ++ toString r.words ++ " words")
  print ("  " ++ toString r.routes ++ " routes, longest " ++ toString r.longest ++ " links, complexity " ++
    toString r.complexity ++ "/10")
  if !r.characters.isEmpty then
    print ""
    printGrid (characterGrid r.characters)
  print ""
  if r.diagnostics.isEmpty then print "✓ No issues found"
  r.diagnostics.forM fun d => print (diagnosticLine d)
  print ""

end Job

/-! ## Commands -/

def Markup.draw (m : Markup) (d : Diagram) : String :=
  match m with
  | .dot => d.dot true
  | .mermaid => d.mermaid true

def Command.job (t : FileTree) : Command → Job Unit
  | .version => Job.print "rpygraph v0.3.0"
  | .analyze path json => do
    let (blocks, settings) ← Job.loadProject t path none
    let a ← Job.analysis blocks settings.analysis
    if json then Job.write (Json.indented Job.analysisJson 0 a.toData) else Job.printAnalysis blocks a
  | .routes path json cap => do
    let (blocks, settings) ← Job.loadProject t path cap
    let a ← Job.analysis blocks settings.analysis
    let r ← Job.routes blocks settings a
    if json then Job.write (Json.indented Job.analysisJson 0 r.toData) else Job.printRoutes r
  | .graph path byRoute markup => do
    let (blocks, settings) ← Job.loadProject t path none
    let a ← Job.analysis blocks settings.analysis
    if byRoute then
      let d := Diagram.ofRoutes (← Job.routes blocks settings a)
      Job.log (.ofRouteDiagram d)
      Job.write (markup.draw d)
    else
      let d := Diagram.ofBlocks blocks a
      Job.log (.ofBlockDiagram d)
      Job.write (markup.draw d)
  | .layout path byRoute => do
    let (blocks, settings) ← Job.loadProject t path none
    let a ← Job.analysis blocks settings.analysis
    let places ← if byRoute then do
        let r ← Job.routes blocks settings a
        pure (Table.ofList (r.nodes.map fun n => (n.node.id, n.position)))
      else pure (placeBlocks blocks a.references.links settings.layout)
    Job.write (Json.indented Job.layoutJson 0 (places.toData Layout.Position.toData))
  | .inspect path => do
    let (blocks, settings) ← Job.loadProject t path none
    let a ← Job.analysis blocks settings.analysis
    let r ← Job.routes blocks settings a
    let report := Report.of blocks a r
    Job.log (.ofReport report)
    Job.printReport settings report
    Job.log (.ofShown report)

/-! ## Command lines -/

structure Outcome where
  exitCode : Nat
  /-- What is printed, unless the command line makes no sense. -/
  output : Option String
  logging : Log.Logging := {}

/-- Runs a command line: options first, then the log file, then the command. -/
def run (t : FileTree) (environment : Option String) (words : List String) : Outcome :=
  match Invocation.ofWords? environment words with
  | none => { exitCode := 2, output := none }
  | some inv =>
    match (inv.log.map t.touch?).getD (some t) with
    | none => { exitCode := 1, output := some "" }
    | some t =>
      let logging := ({ written := { here := t.here } } : Log.Logging).configure inv.verbosity inv.log
      match inv.command with
      | none => { exitCode := 2, output := none, logging }
      | some c =>
        match ((c.job t).run { logging }).run with
        | (.ok _, p) => { exitCode := 0, output := some p.output, logging := p.logging }
        | (.error code, p) => { exitCode := code, output := some p.output, logging := p.logging }

end Plotline.CommandLine
