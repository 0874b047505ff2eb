import Plotline.Route.Enumeration
import Plotline.Story.Analysis

/-!
# The analysis of routes

* `RouteAnalysis`: the graph of routes with a place for each label, and the routes.
* `RouteAnalysis.of`: the analysis for given tables of labels and jumps.
* `placeBlocks`: a place for each block.
-/

namespace Plotline
open Layout

/-- A label with its place in a picture. -/
structure PlacedNode where
  node : RouteNode
  position : Position Float
  width : Float
  height : Float

/-- The graph of routes with a place for each label, and the routes. -/
structure RouteAnalysis where
  nodes : List PlacedNode
  links : List RouteLink
  enumeration : Enumeration

def LayoutSettings.spacing (s : LayoutSettings) : Spacing Float := ⟨s.paddingX, s.paddingY⟩

def Link.edge (l : Link) : Edge := ⟨l.source, l.target⟩

def RouteLink.edge (l : RouteLink) : Edge := ⟨l.source, l.target⟩

def placeBlocks (blocks : List Block) (links : List Link) (settings : LayoutSettings) :
    Table String (Position Float) :=
  let nodes := blocks.map fun b =>
    let (w, h) := settings.nodeSize (b.width.map (·.value)) (b.height.map (·.value))
    (⟨b.id, w, h⟩ : Sized Float)
  place settings.spacing nodes (links.map Link.edge)

namespace RouteAnalysis

def placeNodes (g : RouteGraph) (settings : LayoutSettings) : List PlacedNode :=
  let sized := g.nodes.map fun n => (⟨n.id, settings.labelWidth, settings.labelHeight⟩ : Sized Float)
  let positions := place settings.spacing sized (g.links.map RouteLink.edge)
  g.nodes.map fun n => ⟨n, positions.getD n.id ⟨0.0, 0.0⟩, settings.labelWidth, settings.labelHeight⟩

def of (blocks : List Block) (labels : Table String LabelSite) (jumps : Table String (List Jump))
    (settings : Settings) : RouteAnalysis :=
  let g := RouteGraph.of blocks labels jumps settings.analysis
  { nodes := placeNodes g settings.layout
    links := g.links
    enumeration := Enumeration.of (g.nodes.map (·.id)) g.links settings.analysis.maxRoutes }

def ofAnalysis (blocks : List Block) (a : Analysis) (settings : Settings) : RouteAnalysis :=
  of blocks a.tables.labels a.references.jumps settings

def routes (r : RouteAnalysis) : List Route := r.enumeration.routes

end RouteAnalysis

def Layout.Position.toData (p : Position Float) : Data := .ofTable [("x", .float p.x), ("y", .float p.y)]

def PlacedNode.toData (n : PlacedNode) : Data :=
  .ofTable [("id", .text n.node.id), ("block_id", .text n.node.block), ("label", .text n.node.label),
    ("start_line", .int n.node.line), ("container_name", .text n.node.caption), ("position", n.position.toData),
    ("width", .float n.width), ("height", .float n.height)]

def RouteLink.toData (l : RouteLink) : Data :=
  .ofTable [("source_id", .text l.source), ("target_id", .text l.target), ("type", .text l.kind.word)]

def Route.toData (r : Route) : Data :=
  .ofTable [("id", .int r.id), ("color", .text r.color), ("link_ids", r.links.toData)]

def RouteAnalysis.toData (r : RouteAnalysis) : Data :=
  .ofTable [("label_nodes", .list (r.nodes.map PlacedNode.toData)),
    ("route_links", .list (r.links.map RouteLink.toData)),
    ("identified_routes", .list (r.routes.map Route.toData))]

end Plotline
