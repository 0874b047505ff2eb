import Plotline.Diagram.Basic
import Plotline.Files.Path
import Plotline.Log.Entry
import Plotline.Report

/-!
# What is logged about the stages of a run

* `Event.ofScripts`: scripts have been read.
* `Event.ofSkipped`, `Event.ofTables`, `Event.ofReferences`, `Event.ofRoles`, `Event.ofUsage`, `Event.ofAnalysis`: the
  stages of an analysis.
* `Event.ofRoutes`, `Event.ofReport`, `Event.ofBlockDiagram`, `Event.ofRouteDiagram`: what is built on it.
-/

namespace Plotline.Log.Event

/-- Something that happened in a part of the program, with numbers of things. -/
def counting (level : Level) (logger name : String) (counts : List (String × Nat)) : Event :=
  ⟨level, "rpygraph." ++ logger, name, Table.ofList (counts.map fun c => (c.1, Data.ofNat c.2))⟩

def ofScripts (root : Files.Path) (blocks : List Block) : Event :=
  { level := .info, logger := "rpygraph.loader", name := "blocks_loaded"
    fields := Table.ofList [("root", .text root.toText), ("blocks", .ofNat blocks.length)] }

def ofSkipped (b : Block) : Event :=
  { level := .debug, logger := "rpygraph.analysis.extractor", name := "block_skipped"
    fields := Table.ofList [("block_id", .text b.id), ("file_path", .ofText? b.path)] }

def ofTables (t : Tables) : Event :=
  counting .debug "analysis.extractor" "tables_extracted" [("blocks", t.scanned.length), ("labels", t.labels.size),
    ("characters", t.characters.size), ("variables", t.vars.size), ("screens", t.screens.size),
    ("images", t.images.size)]

def ofReferences (r : References) : Event :=
  counting .debug "analysis.resolver" "references_resolved" [("jumps", Number.total (r.jumps.values.map List.length)),
    ("links", r.links.length), ("blocks_with_invalid", r.invalid.size)]

def ofRoles (r : Roles) : Event :=
  counting .debug "analysis.classifier" "blocks_classified" [("roots", r.roots.size), ("leaves", r.leaves.size),
    ("branching", r.branching.size), ("story", r.story.size), ("screen_only", r.screenOnly.size),
    ("config", r.config.size)]

def ofUsage (u : Usage) : Event :=
  counting .debug "analysis.usage" "usage_indexed" [
    ("dialogue_lines", Number.total (u.dialogue.values.map List.length)),
    ("variables_used", u.uses.values.countP (!·.isEmpty))]

def ofAnalysis (blocks : List Block) (a : Analysis) : Event :=
  counting .debug "analysis.engine" "analysis_complete" [("blocks", blocks.length),
    ("links", a.references.links.length)]

/-- The routes are listed; there may be more than the cap allows. -/
def ofRoutes (settings : AnalysisSettings) (r : RouteAnalysis) : List Event :=
  let built := counting .debug "analysis.routes" "route_graph_built" [("label_nodes", r.nodes.length),
    ("route_links", r.links.length)]
  let truncated := counting .warning "analysis.routes" "routes_truncated" [("max_routes", settings.maxRoutes)]
  let listed := counting .debug "analysis.routes" "routes_enumerated" [("entries", r.enumeration.entries),
    ("routes", r.routes.length), ("loop_routes", r.enumeration.loopRoutes)]
  built :: (if r.enumeration.truncated then [truncated, listed] else [listed])

def ofReport (r : Report) : Event :=
  counting .info "inspection" "inspection_complete" [("blocks", r.blocks), ("routes", r.routes),
    ("diagnostics", r.diagnostics.length)]

def ofShown (r : Report) : Event := counting .info "cli" "inspect_finished" [("warnings", r.warnings)]

def ofBlockDiagram (d : Diagram) : Event :=
  counting .debug "visualization" "block_graph_built" [("nodes", d.nodes.length), ("edges", d.edges.length)]

def ofRouteDiagram (d : Diagram) : Event :=
  counting .debug "visualization" "route_graph_view_built" [("nodes", d.nodes.length), ("edges", d.edges.length)]

end Plotline.Log.Event
