import Plotline.Layout.Placement
import Plotline.Story.References

/-!
# The graph of routes

* `RouteNode`: a plain label of a block that is not ignored.
* `RouteLink`: a jump or call between two labels, or the step from a label into the next one.
* `runsOn`: control runs from the end of a label's text into the next label.
* `RouteGraph.of`: the nodes and links of a project.
-/

namespace Plotline
open Script

/-- How a link between labels comes about. -/
inductive RouteKind where
  | jump
  | call
  | implicit
deriving DecidableEq, Repr

namespace RouteKind

def word : RouteKind → String
  | jump => "jump"
  | call => "call"
  | implicit => "implicit"

def ofWord? (s : String) : Option RouteKind :=
  if s = "jump" then some jump else if s = "call" then some call
  else if s = "implicit" then some implicit else none

def ofJump : JumpKind → RouteKind
  | .jump => jump
  | .call => call

end RouteKind

/-- A label in the graph of routes. -/
structure RouteNode where
  id : String
  block : String
  label : String
  line : Int
  /-- What a picture calls the block of the label. -/
  caption : String
deriving DecidableEq, Repr

/-- A link between two labels. -/
structure RouteLink where
  source : String
  target : String
  kind : RouteKind
deriving DecidableEq, Repr

/-- The key by which routes know a link. -/
def RouteLink.key (l : RouteLink) : String := l.source ++ "-" ++ l.target

def RouteLink.ofData (d : Data) : Checked RouteLink := do
  let es ← Record.fields d
  let link : Checked (String → String → RouteKind → RouteLink) := .ok RouteLink.mk
  link.with (Record.field Record.text es "source_id")
    |>.with (Record.field Record.text es "target_id")
    |>.with (Record.field (Record.choice RouteKind.ofWord?) es "type")

def nodeId (block label : String) : String := block ++ ":" ++ label

/-- A label and the line from which its text runs. -/
structure Span where
  label : String
  line : Int
  node : String
deriving DecidableEq, Repr

/-- The plain labels of a block, by their lines. -/
def spansOf (labels : Table String LabelSite) (block : String) : List Span :=
  let sites := labels.values.filter fun s => s.kind = .label && s.block = block
  (sites.map fun s => ⟨s.label, s.line, nodeId s.block s.label⟩ : List Span).mergeSort
    fun a b => decide (a.line ≤ b.line)

/-- The last of the spans that start at or above a line. -/
def enclosing? (spans : List Span) (line : Int) : Option Span := (spans.takeWhile (·.line ≤ line)).getLast?

/-- The node that a jump to a label goes to. A named menu is a part of the label around it. -/
def targetNode? (labels : Table String LabelSite) (name : String) : Option String :=
  (labels.get? name).bind fun s =>
    match s.kind with
    | .label => some (nodeId s.block name)
    | .menu => (enclosing? (spansOf labels s.block) s.line).map (·.node)

/-- A statement of the body that stands no deeper than its first one ends it: a jump, a call or a return. -/
def hasTerminal (body : List (List Char)) : Bool :=
  let shown := (body.map mask).filter fun l => !(Text.trim l).isEmpty
  match shown with
  | [] => false
  | first :: _ => shown.any fun l => Text.indentation l ≤ Text.indentation first && isTerminal (Text.trim l)

/-- Where an offset points in a list; a negative one counts from the end. -/
def offsetIn (length : Nat) (i : Int) : Nat := if i < 0 then (i + length).toNat else min i.toNat length

/-- The items from one offset up to another. -/
def between {α : Type} (xs : List α) (start stop : Int) : List α :=
  let s := offsetIn xs.length start
  (xs.drop s).take (offsetIn xs.length stop - s)

/-- Control runs from the end of one label's text into the next label. -/
def runsOn (ls : List (List Char)) (current following : Span) : Bool :=
  !hasTerminal (between ls current.line (following.line - 1))

/-- The nodes and links of a project. -/
structure RouteGraph where
  nodes : List RouteNode := []
  /-- The first link between each two nodes. -/
  linkTable : Table (String × String) RouteLink := ∅

namespace RouteGraph

/-- The links, in order of first occurrence. -/
def links (g : RouteGraph) : List RouteLink := g.linkTable.values

/-- Adds a link unless its ends are linked. -/
def addLink (g : RouteGraph) (l : RouteLink) : RouteGraph :=
  { g with linkTable := g.linkTable.insertNew (l.source, l.target) l }

def jumpLink? (labels : Table String LabelSite) (spans : List Span) (j : Jump) : Option RouteLink :=
  if j.dynamic then none
  else match enclosing? spans j.line, targetNode? labels j.target with
    | some s, some t => some ⟨s.node, t, RouteKind.ofJump j.kind⟩
    | _, _ => none

def implicitLinks (b : Block) (spans : List Span) : List RouteLink :=
  let ls := Text.lines b.content.toList
  (spans.zip (spans.drop 1)).filterMap fun (s, t) =>
    if runsOn ls s t then some ⟨s.node, t.node, .implicit⟩ else none

/-- Adds the labels of a block, and the links out of them: jumps first. -/
def addBlock (labels : Table String LabelSite) (jumps : Table String (List Jump)) (g : RouteGraph) (b : Block) :
    RouteGraph :=
  let spans := spansOf labels b.id
  let caption := b.caption
  let nodes := spans.map fun s => ⟨s.node, b.id, s.label, s.line, caption⟩
  let explicit := (jumps.getD b.id []).filterMap (jumpLink? labels spans)
  (explicit ++ implicitLinks b spans).foldl addLink { g with nodes := g.nodes ++ nodes }

def of (blocks : List Block) (labels : Table String LabelSite) (jumps : Table String (List Jump))
    (settings : AnalysisSettings) : RouteGraph :=
  (blocks.filter fun b => !settings.ignores b.path).foldl (addBlock labels jumps) {}

end RouteGraph
end Plotline
