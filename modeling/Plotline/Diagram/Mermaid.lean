import Plotline.Diagram.Basic
import Plotline.Text.Word

/-!
# Diagrams in Mermaid

* `Mermaid.identifier`: a text with everything but letters, digits and underscores replaced by underscores.
* `Mermaid.fresh`: an identifier that is not taken yet, with a number behind it if it must be.
* `Mermaid.identifiers`: an identifier for each id, different ones for different ids.
* `Diagram.mermaid`: the diagram.
-/

namespace Plotline.Mermaid

/-- The text with everything but letters, digits and underscores replaced by underscores. -/
def identifier (id : String) : String :=
  String.ofList (id.toList.map fun c => if Text.isWordChar c then c else '_')

/-- The identifier with a number behind it. -/
def numbered (base : String) (n : Nat) : String := base ++ "_" ++ toString n

/-- The identifier itself, or with the least number from two on that makes it one that is not taken. As many numbers
as there are taken identifiers, and one more, always do. -/
def fresh (taken : List String) (base : String) : String :=
  if taken.contains base then
    (((List.range (taken.length + 1)).map fun i => numbered base (i + 2)).find? (!taken.contains ·)).getD base
  else base

/-- Gives an id an identifier unless it has one. -/
def assign (ids : Table String String) (id : String) : Table String String :=
  if ids.contains id then ids else ids.insert id (fresh ids.values (identifier id))

def identifiers (ids : List String) : Table String String := ids.foldl assign ∅

def spelt (c : Char) : List Char :=
  if c = '"' then ['&', 'q', 'u', 'o', 't', ';'] else if c = '\n' then [' '] else [c]

def escaped (s : String) : String := String.ofList (s.toList.flatMap spelt)

/-- What stands before and after the label of a node. -/
def brackets (n : DiagramNode) : String × String :=
  if !n.isStart && !n.isEnding && n.isBranching then ("\x7b\x7b", "\x7d\x7d") else ("[\"", "\"]")

/-- The style of a node that is a start or an ending. -/
def style (n : DiagramNode) : String :=
  if n.isStart then ":::start" else if n.isEnding then ":::ending" else ""

def nodeLines (ids : Table String String) (n : DiagramNode) : List String :=
  let id := ids.getD n.id ""
  let (opening, closing) := brackets n
  ("  " ++ id ++ opening ++ escaped n.label ++ closing ++ style n) ::
    if n.isBranching && (n.isStart || n.isEnding) then ["  class " ++ id ++ " branching"] else []

def edgeLine (labels : Bool) (ids : Table String String) (e : DiagramEdge) : String :=
  let arrow := if e.isImplicit then "-.->" else "-->"
  let label := if labels && !e.label.isEmpty then "|\"" ++ escaped e.label ++ "\"|" else ""
  "  " ++ ids.getD e.source "" ++ " " ++ arrow ++ label ++ " " ++ ids.getD e.target ""

def styles : List String :=
  ["  classDef start fill:#90EE90,stroke:#333", "  classDef ending fill:#FFB6C1,stroke:#333",
    "  classDef branching stroke:#FF4500,stroke-width:3px"]

/-- The line that colours the edge of a number, if it has a colour. -/
def strokeLine? (i : Nat) (e : DiagramEdge) : Option String :=
  (e.color.filter (!·.isEmpty)).map fun c => "  linkStyle " ++ toString i ++ " stroke:" ++ c ++ ",stroke-width:2px"

end Mermaid

/-- The identifiers of all nodes and of the ends of all edges. -/
def Diagram.mermaidIds (d : Diagram) : Table String String :=
  Mermaid.identifiers (d.nodes.map (·.id) ++ d.edges.flatMap fun e => [e.source, e.target])

/-- The lines of a diagram in Mermaid, with or without the labels of its edges. -/
def Diagram.mermaidLines (d : Diagram) (labels : Bool) : List String :=
  let ids := d.mermaidIds
  ["graph LR"] ++ d.nodes.flatMap (Mermaid.nodeLines ids) ++ [""] ++ d.edges.map (Mermaid.edgeLine labels ids) ++
    [""] ++ Mermaid.styles ++ (d.edges.zipIdx.filterMap fun (e, i) => Mermaid.strokeLine? i e)

def Diagram.mermaid (d : Diagram) (labels : Bool) : String := "\n".intercalate (d.mermaidLines labels)

end Plotline
