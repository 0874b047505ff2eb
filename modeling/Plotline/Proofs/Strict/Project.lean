import Plotline.Diagram.Dot
import Plotline.Proofs.Diagram.Identifiers
import Plotline.Proofs.Strict.Routes
import Plotline.Proofs.Strict.Story
import Plotline.Report

/-!
# Strict runs over a project

* `Strict.report`: a report, where every spoken line is fetched from its block.
* `Strict.mermaid`: a diagram in Mermaid, where the identifiers of nodes and of ends of edges are fetched.
* `Products`: everything that is made of a project.
* `products_eq`: strict runs make all of it without breaking off.
-/

namespace Plotline
open Layout

namespace Strict

/-! ## Reports -/

def wordsInLine (ls : List (List Char)) (number : Int) : Run Nat :=
  if 0 < number && number ≤ ls.length then
    match ls[number.toNat - 1]? with
    | some l => return Script.wordCount l
    | none => throw (.line number)
  else return 0

/-- The spoken lines of a block, if it is at hand. -/
def spokenIn (known : Table String Block) (id : String) (entries : List DialogueLine) : Run (List (String × Nat)) :=
  match known.get? id with
  | none => return []
  | some b => entries.mapM fun e => do return (e.tag, ← wordsInLine (Text.lines b.content.toList) e.line)

/-- Every spoken line of blocks that are at hand: who speaks it, and its number of words. -/
def spokenLines (blocks : List Block) (dialogue : Table String (List DialogueLine)) : Run (List (String × Nat)) := do
  let known := Table.ofList (blocks.map fun b => (b.id, b))
  return (← dialogue.entries.mapM fun e => spokenIn known e.1 e.2).flatten

def report (blocks : List Block) (a : Analysis) (r : RouteAnalysis) : Run Report := do
  let spoken ← spokenLines blocks a.usage.dialogue
  let stats := a.tables.characters.entries.map fun (tag, c) =>
    { tag, name := c.name, color := c.color, lines := a.usage.spoken.getD tag 0
      words := Number.total ((spoken.filter (·.1 = tag)).map (·.2)) : CharacterStats }
  return { Report.of blocks a r with characters := stats.mergeSort Report.saysMore }

theorem wordsInLine_eq (ls : List (List Char)) (number : Int) :
    wordsInLine ls number = .ok (Report.wordsInLine ls number) := by
  unfold wordsInLine Report.wordsInLine
  by_cases hpos : number ≤ 0
  · rw [if_neg (by simp; omega), if_pos hpos]
    rfl
  · rw [if_neg hpos]
    by_cases hle : number ≤ ls.length
    · have hindex : number.toNat - 1 < ls.length := by omega
      rw [if_pos (by simp; omega), List.getElem?_eq_getElem hindex]
      rfl
    · have hindex : ls.length ≤ number.toNat - 1 := by omega
      rw [if_neg (by simp; omega), List.getElem?_eq_none hindex]
      rfl

theorem spokenLines_eq (blocks : List Block) (dialogue : Table String (List DialogueLine)) :
    spokenLines blocks dialogue = .ok (Report.spokenLines blocks dialogue) := by
  let known := Table.ofList (blocks.map fun b => (b.id, b))
  let spoken (e : String × List DialogueLine) : List (String × Nat) :=
    match known.get? e.1 with
    | none => []
    | some b => e.2.map fun d => (d.tag, Report.wordsInLine (Text.lines b.content.toList) d.line)
  have hmap : dialogue.entries.mapM (fun e => spokenIn known e.1 e.2) = .ok (dialogue.entries.map spoken) := by
    refine mapM_eq_ok fun e _ => ?_
    unfold spokenIn
    simp only [spoken]
    split
    · rfl
    · refine mapM_eq_ok fun d _ => ?_
      rw [wordsInLine_eq]
      rfl
  show (dialogue.entries.mapM (fun e => spokenIn known e.1 e.2) >>= fun spoken => pure spoken.flatten) = _
  rw [hmap, ok_bind, ← List.flatMap_def]
  rfl

theorem report_eq (blocks : List Block) (a : Analysis) (r : RouteAnalysis) :
    report blocks a r = .ok (Report.of blocks a r) := by
  unfold report
  rw [spokenLines_eq, ok_bind]
  rfl

/-! ## Diagrams -/

/-- The identifier itself, or with the least number from two on that makes it one that is not taken. -/
def fresh (taken : List String) (base : String) : Run String :=
  if taken.contains base then
    match ((List.range (taken.length + 1)).map fun i => Mermaid.numbered base (i + 2)).find? (!taken.contains ·) with
    | some candidate => return candidate
    | none => throw .rounds
  else return base

/-- Gives an id an identifier unless it has one. -/
def assign (ids : Table String String) (id : String) : Run (Table String String) :=
  if ids.contains id then return ids else do return ids.insert id (← fresh ids.values (Mermaid.identifier id))

def nodeLines (ids : Table String String) (n : DiagramNode) : Run (List String) := do
  let id ← ids.fetch n.id
  let (opening, closing) := Mermaid.brackets n
  return ("  " ++ id ++ opening ++ Mermaid.escaped n.label ++ closing ++ Mermaid.style n) ::
    if n.isBranching && (n.isStart || n.isEnding) then ["  class " ++ id ++ " branching"] else []

def edgeLine (labels : Bool) (ids : Table String String) (e : DiagramEdge) : Run String := do
  let source ← ids.fetch e.source
  let target ← ids.fetch e.target
  let arrow := if e.isImplicit then "-.->" else "-->"
  let label := if labels && !e.label.isEmpty then "|\"" ++ Mermaid.escaped e.label ++ "\"|" else ""
  return "  " ++ source ++ " " ++ arrow ++ label ++ " " ++ target

def mermaid (d : Diagram) (labels : Bool) : Run String := do
  let ids ← (d.nodes.map (·.id) ++ d.edges.flatMap fun e => [e.source, e.target]).foldlM assign ∅
  let nodes ← d.nodes.mapM (nodeLines ids)
  let edges ← d.edges.mapM (edgeLine labels ids)
  let strokes := d.edges.zipIdx.filterMap fun (e, i) => Mermaid.strokeLine? i e
  return "\n".intercalate (["graph LR"] ++ nodes.flatten ++ [""] ++ edges ++ [""] ++ Mermaid.styles ++ strokes)

theorem fresh_eq (taken : List String) (base : String) : fresh taken base = .ok (Mermaid.fresh taken base) := by
  obtain ⟨candidate, hfind⟩ := Mermaid.exists_numbered taken base
  unfold fresh Mermaid.fresh
  rw [hfind]
  split <;> rfl

theorem identifiers_eq (ids : List String) : ids.foldlM assign ∅ = .ok (Mermaid.identifiers ids) := by
  refine (foldlM_eq_ok (fun _ => True) trivial fun t _ id _ => ⟨?_, trivial⟩).1
  unfold assign Mermaid.assign
  split
  · rfl
  · rw [fresh_eq]
    rfl

theorem mermaid_eq (d : Diagram) (labels : Bool) : mermaid d labels = .ok (d.mermaid labels) := by
  have hfetch {id : String} (h : id ∈ d.nodes.map (·.id) ++ d.edges.flatMap fun e => [e.source, e.target]) :
      d.mermaidIds.fetch id = .ok (d.mermaidIds.getD id "") :=
    Table.fetch_of_contains (Mermaid.contains_identifiers.2 h) ""
  have hnodes : d.nodes.mapM (nodeLines d.mermaidIds) = .ok (d.nodes.map (Mermaid.nodeLines d.mermaidIds)) := by
    refine mapM_eq_ok fun n hn => ?_
    unfold nodeLines
    rw [hfetch (List.mem_append_left _ (List.mem_map_of_mem hn))]
    rfl
  have hedges : d.edges.mapM (edgeLine labels d.mermaidIds) =
    .ok (d.edges.map (Mermaid.edgeLine labels d.mermaidIds)) := by
    refine mapM_eq_ok fun e he => ?_
    unfold edgeLine
    rw [hfetch (List.mem_append_right _ (List.mem_flatMap.2 ⟨e, he, by simp⟩)),
      hfetch (List.mem_append_right _ (List.mem_flatMap.2 ⟨e, he, by simp⟩))]
    rfl
  have hids : (d.nodes.map (·.id) ++ d.edges.flatMap fun e => [e.source, e.target]).foldlM assign ∅ =
      .ok d.mermaidIds := identifiers_eq _
  unfold mermaid
  rw [hids, ok_bind, hnodes, ok_bind, hedges, ok_bind]
  rfl

end Strict

/-! ## Everything that is made of a project -/

/-- Everything that is made of a project. -/
structure Products where
  analysis : Analysis
  routes : RouteAnalysis
  places : Table String (Position Float)
  report : Report
  blockDiagram : Diagram
  routeDiagram : Diagram
  /-- Both diagrams in DOT and in Mermaid. -/
  drawings : List String

/-- Everything that is made of a project, with or without the labels of edges in its drawings. -/
def Products.of (blocks : List Block) (settings : Settings) (labels : Bool) : Products :=
  let analysis := Analysis.ofBlocks blocks settings.analysis
  let routes := RouteAnalysis.ofAnalysis blocks analysis settings
  let blockDiagram := Diagram.ofBlocks blocks analysis
  let routeDiagram := Diagram.ofRoutes routes
  { analysis, routes, blockDiagram, routeDiagram
    places := placeBlocks blocks analysis.references.links settings.layout
    report := Report.of blocks analysis routes
    drawings := [blockDiagram.dot labels, blockDiagram.mermaid labels, routeDiagram.dot labels,
      routeDiagram.mermaid labels] }

/-- Everything that is made of a project, by strict runs. -/
def Strict.products (blocks : List Block) (settings : Settings) (labels : Bool) : Run Products := do
  let analysis ← Strict.analysis blocks settings.analysis
  let routes ← Strict.routes blocks analysis.tables.labels analysis.references.jumps settings
  let places ← Strict.placeBlocks blocks analysis.references.links settings.layout
  let report ← Strict.report blocks analysis routes
  let blockDiagram := Diagram.ofBlocks blocks analysis
  let routeDiagram := Diagram.ofRoutes routes
  let blockMermaid ← Strict.mermaid blockDiagram labels
  let routeMermaid ← Strict.mermaid routeDiagram labels
  return { analysis, routes, places, report, blockDiagram, routeDiagram
           drawings := [blockDiagram.dot labels, blockMermaid, routeDiagram.dot labels, routeMermaid] }

/-- **Nothing is looked up in vain.** Strict runs over blocks of any kind, repeated ids included, make everything that
is made of a project, without breaking off, as long as the paths in the settings are texts. -/
theorem products_eq (blocks : List Block) {settings : Settings} (h : settings.analysis.HasTextPaths) (labels : Bool) :
    Strict.products blocks settings labels = .ok (Products.of blocks settings labels) := by
  unfold Strict.products
  simp only [Strict.analysis_eq h, Strict.ok_bind, Strict.routes_eq, Strict.placeBlocks_eq, Strict.report_eq,
    Strict.mermaid_eq]
  rfl

/-- Two blocks of one id that jump to and fro, and somewhere else. -/
def twins : List Block := [
  { id := "a b", content := "label dawn:\n jump dusk\n jump dawn\n", width := some { value := 0.0 } },
  { id := "a b", content := "label dusk:\n jump dawn\n jump nowhere\n", path := some "game/variables.rpy" }]

theorem products_eq_twins : ¬(twins.map (·.id)).Nodup ∧ AnalysisSettings.usual.HasTextPaths ∧
    Strict.products twins {} true = .ok (Products.of twins {} true) := by
  have htexts : AnalysisSettings.usual.HasTextPaths := by
    intro d hd
    simp only [AnalysisSettings.usual, List.cons_append, List.nil_append, List.mem_cons, List.not_mem_nil, or_false]
      at hd
    rcases hd with rfl | rfl | rfl <;> exact ⟨_, rfl⟩
  exact ⟨by decide, htexts, products_eq twins htexts true⟩

end Plotline
