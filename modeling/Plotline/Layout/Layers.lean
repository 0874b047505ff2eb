import Plotline.NameSet

/-!
# Layers of a graph

* `Edge`: an edge between two nodes.
* `release`: the nodes that become ready when the edges out of one node are taken away.
* `wave`: the same for all nodes of a layer.
* `layers`: the nodes of a graph in layers, so that a node comes behind all nodes that lead to it unless a cycle does.

A node that waits becomes ready when no pending edge leads to it. A graph in which an edge leads to every node is
entered at the first node with the fewest edges to it, and what never becomes ready stands in one last layer.
-/

namespace Plotline.Layout

/-- An edge between two nodes. -/
structure Edge where
  source : String
  target : String
deriving DecidableEq, Repr

/-- Nodes and edges that are still to come. -/
structure Rest where
  /-- The nodes that are not ready, in order. -/
  waiting : List String
  /-- The edges out of nodes that have not been placed. -/
  pending : List Edge

/-- Takes away the edges `mine` of one node, in order; `others` are the edges out of other nodes. Yields the nodes
that become ready and those that go on waiting. -/
def release (others : List Edge) : (mine : List Edge) → (waiting : List String) → List String × List String
  | [], waiting => ([], waiting)
  | e :: mine, waiting =>
    if waiting.contains e.target && !(mine.any (·.target = e.target) || others.any (·.target = e.target)) then
      let (ready, waiting) := release others mine (waiting.erase e.target)
      (e.target :: ready, waiting)
    else release others mine waiting

/-- Places the nodes of a layer one by one. Yields the nodes that become ready and what is still to come. -/
def wave : (layer : List String) → Rest → List String × Rest
  | [], rest => ([], rest)
  | n :: layer, rest =>
    let others := rest.pending.filter (·.source ≠ n)
    let (ready, waiting) := release others (rest.pending.filter (·.source = n)) rest.waiting
    let (later, rest) := wave layer ⟨waiting, others⟩
    (ready ++ later, rest)

theorem length_release (others : List Edge) : ∀ (mine : List Edge) (waiting : List String),
    (release others mine waiting).1.length + (release others mine waiting).2.length = waiting.length
  | [], waiting => by simp [release]
  | e :: mine, waiting => by
    unfold release
    split
    · rename_i h
      have hmem : e.target ∈ waiting := by simp_all
      have ih := length_release others mine (waiting.erase e.target)
      have hlen := List.length_erase_of_mem hmem
      have hpos := List.length_pos_of_mem hmem
      simp only [List.length_cons]
      omega
    · exact length_release others mine waiting

theorem length_wave : ∀ (layer : List String) (rest : Rest),
    (wave layer rest).1.length + (wave layer rest).2.waiting.length = rest.waiting.length
  | [], rest => by simp [wave]
  | n :: layer, rest => by
    unfold wave
    have h := length_release (rest.pending.filter (·.source ≠ n)) (rest.pending.filter (·.source = n)) rest.waiting
    have ih := length_wave layer ⟨(release (rest.pending.filter (·.source ≠ n))
      (rest.pending.filter (·.source = n)) rest.waiting).2, rest.pending.filter (·.source ≠ n)⟩
    simp only [List.length_append]
    simp only at ih
    omega

/-- The layers from one on; the nodes that are never ready come last. -/
def layersFrom (layer : List String) (rest : Rest) : List (List String) :=
  if layer.isEmpty then
    if rest.waiting.isEmpty then [] else [rest.waiting]
  else layer :: layersFrom (wave layer rest).1 (wave layer rest).2
termination_by 2 * rest.waiting.length + (if layer.isEmpty then 0 else 1)
decreasing_by
  rename_i hlayer
  have h := length_wave layer rest
  by_cases hready : (wave layer rest).1.isEmpty
  · simp only [hready, hlayer, if_true, if_neg, Bool.false_eq_true, not_false_eq_true]
    have : (wave layer rest).1.length = 0 := by simpa using hready
    simp
    omega
  · have : (wave layer rest).1.length ≠ 0 := by simpa using hready
    simp only [hready, hlayer]
    simp
    omega

def degree (edges : List Edge) (n : String) : Nat := edges.countP (·.target = n)

/-- The first of the nodes from `n` on with the fewest edges to it. -/
def leastDegree (edges : List Edge) (n : String) (nodes : List String) : String :=
  nodes.foldl (fun best m => if degree edges m < degree edges best then m else best) n

/-- The nodes of the first layer: those that no edge leads to, else one node that the fewest edges lead to. -/
def firstLayer (edges : List Edge) (nodes : List String) : List String :=
  match nodes.filter fun n => !edges.any (·.target = n), nodes with
  | [], n :: ns => [leastDegree edges n ns]
  | sources, _ => sources

/-- The nodes of a graph in layers. Edges to or from anything else do not count. -/
def layers (ids : List String) (edges : List Edge) : List (List String) :=
  let nodes := (NameSet.ofList ids).members
  let edges := edges.filter fun e => nodes.contains e.source && nodes.contains e.target
  let first := firstLayer edges nodes
  layersFrom first ⟨nodes.filter (!first.contains ·), edges⟩

end Plotline.Layout
