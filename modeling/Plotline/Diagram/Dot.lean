import Plotline.Diagram.Basic

/-!
# Diagrams in DOT

* `Dot.escaped`: a text as it stands between double quotes.
* `Dot.nodeLine`, `Dot.edgeLine`: the statements for a node and an edge.
* `Diagram.dotLines`: five lines of heading, a line for each node, an empty line, a line for each edge, and an end.
-/

namespace Plotline.Dot

def spelt (c : Char) : List Char :=
  if c = '\\' then ['\\', '\\'] else if c = '"' then ['\\', '"'] else if c = '\n' then ['\\', 'n'] else [c]

/-- A text as it stands between double quotes. -/
def escaped (s : String) : List Char := s.toList.flatMap spelt

def quote (s : String) : String := String.ofList ('"' :: escaped s ++ ['"'])

def bracketed (attributes : List (String × String)) : String :=
  "[" ++ " ".intercalate (attributes.map fun a => a.1 ++ "=" ++ a.2) ++ "]"

def shape (n : DiagramNode) : List (String × String) :=
  if n.isStart then [("shape", "doubleoctagon"), ("fillcolor", quote "#90EE90")]
  else if n.isEnding then [("shape", "octagon"), ("fillcolor", quote "#FFB6C1")]
  else [("shape", "box"), ("fillcolor", quote "#D3D3D3")]

/-- The thick border of a branching node. -/
def border (n : DiagramNode) : List (String × String) :=
  if n.isBranching then [("color", quote "#FF4500"), ("penwidth", quote "2.5")] else []

def nodeLine (n : DiagramNode) : String :=
  "  " ++ quote n.id ++ " " ++ bracketed (shape n ++ border n ++ [("label", quote n.label)]) ++ ";"

/-- The colour of an edge that has one, or of an implicit edge without one. -/
def stroke (e : DiagramEdge) : List (String × String) :=
  match e.color.filter (!·.isEmpty), e.isImplicit with
  | some c, _ => [("color", "\"" ++ c ++ "\""), ("penwidth", quote "2")]
  | none, true => [("color", quote "#808080")]
  | none, false => []

def edgeAttributes (labels : Bool) (e : DiagramEdge) : List (String × String) :=
  (if labels && !e.label.isEmpty then [("label", quote e.label)] else []) ++
    (if e.isImplicit then [("style", quote "dashed")] else []) ++ stroke e

def edgeLine (labels : Bool) (e : DiagramEdge) : String :=
  let attributes := edgeAttributes labels e
  "  " ++ quote e.source ++ " -> " ++ quote e.target ++
    (if attributes.isEmpty then "" else " " ++ bracketed attributes) ++ ";"

def heading : List String :=
  ["digraph script \x7b", "  rankdir=LR;",
    "  node [fontname=\"Helvetica\" fontsize=10 style=\"filled,solid\"];",
    "  edge [fontname=\"Helvetica\" fontsize=8];", ""]

end Dot

/-- The lines of a diagram in DOT, with or without the labels of its edges. -/
def Diagram.dotLines (d : Diagram) (labels : Bool) : List String :=
  Dot.heading ++ d.nodes.map Dot.nodeLine ++ [""] ++ d.edges.map (Dot.edgeLine labels) ++ ["\x7d"]

def Diagram.dot (d : Diagram) (labels : Bool) : String := "\n".intercalate (d.dotLines labels)

end Plotline
