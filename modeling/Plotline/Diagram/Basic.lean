import Plotline.Route.Analysis

/-!
# Diagrams

* `Diagram`: nodes and edges with all that a picture shows of them.
* `Diagram.ofBlocks`: the blocks of a project and the links between them.
* `Diagram.ofRoutes`: the labels of a project and the links between them, in the colours of the routes.
-/

namespace Plotline

structure DiagramNode where
  id : String
  label : String
  isStart : Bool := false
  isEnding : Bool := false
  isBranching : Bool := false
deriving DecidableEq, Repr

structure DiagramEdge where
  source : String
  target : String
  label : String := ""
  isImplicit : Bool := false
  color : Option String := none
deriving DecidableEq, Repr

/-- Nodes and edges with all that a picture shows of them. -/
structure Diagram where
  nodes : List DiagramNode
  edges : List DiagramEdge
deriving DecidableEq, Repr

/-- A text cut to a length, with three dots at a cut. -/
def shortened (length : Nat) (s : String) : String :=
  let cs := s.toList
  if cs.length ≤ length then s else String.ofList (cs.take (length - 3) ++ ['.', '.', '.'])

/-- What a diagram calls a block: its title, else its path, else its id. -/
def Block.diagramLabel (b : Block) : String :=
  match b.title.filter (!·.isEmpty), b.path.filter (!·.isEmpty) with
  | some t, _ => t
  | none, some p => p
  | none, none => b.id

namespace Diagram

def ofBlocks (blocks : List Block) (a : Analysis) : Diagram :=
  { nodes := blocks.map fun b =>
      { id := b.id
        label := shortened 40 b.diagramLabel
        isStart := a.roles.roots.contains b.id
        isEnding := a.roles.leaves.contains b.id
        isBranching := a.roles.branching.contains b.id }
    edges := a.references.links.map fun l => { source := l.source, target := l.target, label := l.label } }

/-- The colour of the first route over a link. -/
def linkColor? (routes : List Route) (key : String) : Option String :=
  (routes.find? fun r => r.links.contains key).map (·.color)

/-- The labels of a project and the links between them. A label to which no link leads is a start, one from which no
link leads is an ending, and a link has the colour of the first route over it. -/
def ofRoutes (r : RouteAnalysis) : Diagram :=
  { nodes := r.nodes.map fun n =>
      { id := n.node.id
        label := n.node.label ++ " (" ++ n.node.caption ++ ")"
        isStart := !r.links.any (·.target = n.node.id)
        isEnding := !r.links.any (·.source = n.node.id) }
    edges := r.links.map fun l =>
      { source := l.source
        target := l.target
        label := if l.kind = .implicit then "" else l.kind.word
        isImplicit := l.kind = .implicit
        color := linkColor? r.routes l.key } }

end Diagram

def DiagramNode.toData (n : DiagramNode) : Data :=
  .ofTable [("id", .text n.id), ("label", .text n.label), ("is_start", .bool n.isStart),
    ("is_ending", .bool n.isEnding), ("is_branching", .bool n.isBranching)]

def DiagramEdge.toData (e : DiagramEdge) : Data :=
  .ofTable [("from_id", .text e.source), ("to_id", .text e.target), ("label", .text e.label),
    ("is_implicit", .bool e.isImplicit), ("color", .ofText? e.color)]

def Diagram.toData (d : Diagram) : Data :=
  .ofTable [("nodes", .list (d.nodes.map DiagramNode.toData)), ("edges", .list (d.edges.map DiagramEdge.toData))]

end Plotline
