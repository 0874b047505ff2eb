import Plotline.Proofs.Route.Net
import Plotline.Proofs.Strict.Placement

/-!
# The strict analysis of routes

* `Strict.explore`: a walk that fetches the steps out of every node it comes to.
* `Strict.explore_eq`: such a walk finds the same routes as a walk through a net whose steps lead to its nodes.
* `Strict.enumeration_eq`: the routes of a graph are listed without breaking off.
* `Strict.routes_eq`, `Strict.placeBlocks_eq`: so are labels and blocks placed.
-/

namespace Plotline.Strict
open Layout

/-! ## Walks -/

theorem mem_keys_of_fetch {α : Type} {t : Table String α} {k : String} {v : α} (h : t.fetch k = .ok v) :
    k ∈ t.keys := by
  rw [← Table.contains_eq_true_iff, Table.contains]
  unfold Table.fetch at h
  split at h
  · rename_i w hw
    rw [hw, Option.isSome_some]
  · cases h

/-- Walks on from the head of `path` by each of the `steps`, as long as there is room. Path and keys begin at their
end. -/
def explore (successors : Table String (List Step)) (path keys : List String) (steps : List Step) (h : Harvest) :
    Run Harvest :=
  match steps with
  | [] => return h
  | s :: rest =>
    if h.terminal.full then return h
    else if _hpath : path.contains s.target = true then
      explore successors path keys rest (h.addLoop (s.target :: path) (s.key :: keys))
    else
      match _hfetch : successors.fetch s.target with
      | .error e => throw e
      | .ok [] => explore successors path keys rest (h.addTerminal (s.target :: path) (s.key :: keys))
      | .ok (t :: ts) => do
        let h ← explore successors (s.target :: path) (s.key :: keys) (t :: ts) h
        explore successors path keys rest h
termination_by ((successors.keys.filter (!path.contains ·)).length, steps.length)
decreasing_by
  all_goals first
    | exact Prod.Lex.right _ (by simp)
    | refine Prod.Lex.left _ _ (Net.length_filter_lt (mem_keys_of_fetch _hfetch) (fun n hn => ?_) ?_ ?_)
      · simp only [List.contains_cons, Bool.not_eq_eq_eq_not, Bool.not_true, Bool.or_eq_false_iff] at hn
        simpa using hn.2
      · simp
      · simpa using _hpath

section Explore
variable {successors : Table String (List Step)} {path keys : List String} {s : Step} {rest : List Step} {h : Harvest}

theorem explore_of_full (steps : List Step) (hfull : h.terminal.full = true) :
    explore successors path keys steps h = .ok h := by
  cases steps with
  | nil =>
      rw [explore]
      rfl
  | cons s rest =>
      rw [explore, if_pos hfull]
      rfl

theorem explore_of_closed (hfull : ¬h.terminal.full = true) (hpath : path.contains s.target = true) :
    explore successors path keys (s :: rest) h =
      explore successors path keys rest (h.addLoop (s.target :: path) (s.key :: keys)) := by
  rw [explore, if_neg hfull, dif_pos hpath]

theorem explore_of_end (hfull : ¬h.terminal.full = true) (hpath : ¬path.contains s.target = true)
    (hfetch : successors.fetch s.target = .ok []) : explore successors path keys (s :: rest) h =
      explore successors path keys rest (h.addTerminal (s.target :: path) (s.key :: keys)) := by
  rw [explore, if_neg hfull, dif_neg hpath]
  split <;> simp_all

theorem explore_of_steps {t : Step} {ts : List Step} (hfull : ¬h.terminal.full = true)
    (hpath : ¬path.contains s.target = true) (hfetch : successors.fetch s.target = .ok (t :: ts)) :
    explore successors path keys (s :: rest) h =
      explore successors (s.target :: path) (s.key :: keys) (t :: ts) h >>= explore successors path keys rest := by
  rw [explore, if_neg hfull, dif_neg hpath]
  split <;> simp_all

end Explore

def walk (successors : Table String (List Step)) (h : Harvest) (entry : String) : Run Harvest :=
  if h.terminal.full then return h else do explore successors [entry] [] (← successors.fetch entry) h

def enumeration (ids : List String) (links : List RouteLink) (cap : Int) : Run Enumeration := do
  let a ← Adjacency.of RouteLink.edge (fun l => (⟨l.target, l.key⟩ : Step)) ids links
  let entries ← a.first
  let h ← entries.foldlM (walk a.successors) (Harvest.start cap)
  let terminal := h.terminal.routes
  return {
    routes := Enumeration.number (if terminal.isEmpty then h.loops.routes else terminal)
    truncated := h.terminal.full
    entries := entries.length
    loopRoutes := if terminal.isEmpty then h.loops.routes.length else 0 }

def HasSteps (net : Net) (successors : Table String (List Step)) : Prop :=
  ∀ n ∈ net.nodes, successors.get? n = some ((net.stepsOf n).map (·.1))

/-- A walk by fetched steps finds what a walk through the net finds. -/
theorem explore_eq {net : Net} {successors : Table String (List Step)} (hsteps : HasSteps net successors)
    (path keys : List String) (steps : List { s : Step // s.target ∈ net.nodes }) (h : Harvest) :
    explore successors path keys (steps.map (·.1)) h = .ok (Plotline.explore net path keys steps h) := by
  fun_induction Plotline.explore net path keys steps h with
  | case1 path keys h =>
      rw [List.map_nil, explore]
      rfl
  | case2 path keys h s rest hfull => exact explore_of_full _ hfull
  | case3 path keys h s rest hfull hpath ih =>
      rw [List.map_cons, explore_of_closed hfull hpath]
      exact ih
  | case4 path keys h s rest hfull hpath hend ih =>
      have hfetch := Table.fetch_of_get? (hsteps _ s.2)
      rw [List.isEmpty_iff.1 hend] at hfetch
      rw [List.map_cons, explore_of_end hfull hpath hfetch]
      exact ih
  | case5 path keys h s rest hfull hpath hend ihdeep ih =>
      have hfetch := Table.fetch_of_get? (hsteps _ s.2)
      obtain ⟨t, ts, htargets⟩ := List.exists_cons_of_ne_nil fun hnil => hend (List.isEmpty_iff.2 hnil)
      have hmap : (net.stepsOf s.1.target).map (·.1) = t.1 :: ts.map (·.1) := by rw [htargets, List.map_cons]
      rw [hmap] at hfetch ihdeep
      rw [List.map_cons, explore_of_steps hfull hpath hfetch, ihdeep, ok_bind]
      exact ih

theorem walk_eq {net : Net} {successors : Table String (List Step)} (hsteps : HasSteps net successors) {entry : String}
    (hentry : entry ∈ net.nodes) (h : Harvest) : walk successors h entry = .ok (Plotline.walk net h entry) := by
  unfold walk Plotline.walk
  split
  · rfl
  · rw [Table.fetch_of_get? (hsteps entry hentry), ok_bind, explore_eq hsteps]

theorem map_val_stepsFrom (nodes : List String) (n : String) (links : List RouteLink) :
    (Net.stepsFrom nodes links n).map (·.1) =
      (links.filter fun l => l.source = n ∧ l.target ∈ nodes).map fun l => ⟨l.target, l.key⟩ := by
  induction links with
  | nil => rfl
  | cons l links ih =>
      unfold Net.stepsFrom at ih ⊢
      by_cases h : l.source = n ∧ l.target ∈ nodes
      · rw [List.filterMap_cons, dif_pos h, List.filter_cons, if_pos (by simpa using h)]
        simp only [List.map_cons, ih]
      · rw [List.filterMap_cons, dif_neg h, List.filter_cons, if_neg (by simpa using h)]
        exact ih

theorem hasSteps_of_holds {ids : List String} {links : List RouteLink} {a : Adjacency Step}
    (h : a.Holds RouteLink.edge (fun l => (⟨l.target, l.key⟩ : Step)) ids links) :
    HasSteps (Net.of ids links) a.successors := by
  intro n hn
  rw [Net.nodes_of, List.mem_eraseDups] at hn
  have hmembers : ∀ m, m ∈ (NameSet.ofList ids).members ↔ m ∈ ids := fun _ => Net.mem_members_ofList ids
  have hval : ((Net.of ids links).stepsOf n).map (·.1) =
      (if n ∈ ids then Net.stepsFrom (NameSet.ofList ids).members links n else []).map (·.1) :=
    congrArg (List.map fun s : { s : Step // s.target ∈ (NameSet.ofList ids).members } => s.1)
      (Net.stepsOf_eq ids links n)
  rw [h.successors n hn, hval, if_pos hn, map_val_stepsFrom]
  simp only [hmembers]
  rfl

/-- The routes of a graph are listed without breaking off. -/
theorem enumeration_eq (ids : List String) (links : List RouteLink) (cap : Int) :
    enumeration ids links cap = .ok (Enumeration.of ids links cap) := by
  obtain ⟨a, htables, hholds⟩ : ∃ a, Adjacency.of RouteLink.edge (fun l => (⟨l.target, l.key⟩ : Step)) ids links =
      .ok a ∧ a.Holds RouteLink.edge (fun l => (⟨l.target, l.key⟩ : Step)) ids links := Adjacency.of_eq ids links
  have hentries : a.first = .ok (Net.of ids links).entries := by
    rw [hholds.first_eq, Net.entries_of]
    rfl
  -- Only nodes are fetched: a walk begins at a node, and its steps lead to nodes.
  have hmem : ∀ e ∈ (Net.of ids links).entries, e ∈ (Net.of ids links).nodes := by
    intro e he
    rw [Net.entries_of] at he
    rw [Net.nodes_of, List.mem_eraseDups]
    exact mem_of_mem_firstNodes he
  have hwalks : (Net.of ids links).entries.foldlM (walk a.successors) (Harvest.start cap) =
      .ok ((Net.of ids links).entries.foldl (Plotline.walk (Net.of ids links)) (Harvest.start cap)) :=
    (foldlM_eq_ok (fun _ => True) trivial fun h _ e he =>
      ⟨walk_eq (hasSteps_of_holds hholds) (hmem e he) h, trivial⟩).1
  unfold enumeration
  rw [htables, ok_bind, hentries, ok_bind, hwalks]
  rfl

/-! ## Places -/

def routes (blocks : List Block) (labels : Table String LabelSite) (jumps : Table String (List Jump))
    (settings : Settings) : Run RouteAnalysis := do
  let g := RouteGraph.of blocks labels jumps settings.analysis
  let enumeration ← enumeration (g.nodes.map (·.id)) g.links settings.analysis.maxRoutes
  let sized := g.nodes.map fun n => (⟨n.id, settings.layout.labelWidth, settings.layout.labelHeight⟩ : Sized Float)
  let positions ← place settings.layout.spacing sized (g.links.map RouteLink.edge)
  let nodes ← g.nodes.mapM fun n => do
    return (⟨n, ← positions.fetch n.id, settings.layout.labelWidth, settings.layout.labelHeight⟩ : PlacedNode)
  return { nodes, links := g.links, enumeration }

def placeBlocks (blocks : List Block) (links : List Link) (settings : LayoutSettings) :
    Run (Table String (Position Float)) :=
  let nodes := blocks.map fun b =>
    let (w, h) := settings.nodeSize (b.width.map (·.value)) (b.height.map (·.value))
    (⟨b.id, w, h⟩ : Sized Float)
  place settings.spacing nodes (links.map Link.edge)

theorem placeBlocks_eq (blocks : List Block) (links : List Link) (settings : LayoutSettings) :
    placeBlocks blocks links settings = .ok (Plotline.placeBlocks blocks links settings) :=
  place_eq _ _ _

theorem placeNodes_eq (g : RouteGraph) (settings : LayoutSettings) :
    g.nodes.mapM (fun n => (do
      return ⟨n, ← (Layout.place settings.spacing (g.nodes.map fun n =>
        ⟨n.id, settings.labelWidth, settings.labelHeight⟩)
        (g.links.map RouteLink.edge)).fetch n.id, settings.labelWidth, settings.labelHeight⟩ : Run PlacedNode)) =
      .ok (RouteAnalysis.placeNodes g settings) := by
  refine mapM_eq_ok fun n hn => ?_
  have hplace := contains_place settings.spacing
    (g.nodes.map fun n => (⟨n.id, settings.labelWidth, settings.labelHeight⟩ : Sized Float))
    (g.links.map RouteLink.edge) (List.mem_map_of_mem hn)
  rw [Table.fetch_of_contains hplace ⟨0.0, 0.0⟩]
  rfl

theorem routes_eq (blocks : List Block) (labels : Table String LabelSite) (jumps : Table String (List Jump))
    (settings : Settings) :
    routes blocks labels jumps settings = .ok (RouteAnalysis.of blocks labels jumps settings) := by
  unfold routes
  simp only [enumeration_eq, place_eq, ok_bind, placeNodes_eq]
  rfl

end Plotline.Strict
