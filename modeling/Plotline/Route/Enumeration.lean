import Std.Data.HashSet
import Plotline.Number.Arithmetic
import Plotline.Palette
import Plotline.Route.Graph

/-!
# Listing routes

* `Net`: the nodes of a graph with the steps out of each; every step leads to a node of the net.
* `Collected`: routes in order of discovery, each node path once, up to a cap.
* `explore`: walks all simple paths on from a node, depth first.
* `Enumeration.of`: the routes from entries to nodes without a step, or those that close a cycle if there are none.

The walk ends because every step that goes deeper leaves one node less off the path.
-/

namespace Plotline

/-- A step to a node, by a link. -/
structure Step where
  target : String
  key : String
deriving DecidableEq, Repr

/-- The nodes of a graph with the steps out of each. -/
structure Net where
  /-- The nodes, in order. -/
  nodes : List String
  nodup : nodes.Nodup
  /-- The steps out of each node, in the order of their links. -/
  steps : Table String (List { s : Step // s.target ∈ nodes })

namespace Net

/-- The links between two nodes of a list, as steps. -/
def stepsFrom (nodes : List String) (links : List RouteLink) (n : String) : List { s : Step // s.target ∈ nodes } :=
  links.filterMap fun l =>
    if h : l.source = n ∧ l.target ∈ nodes then some ⟨⟨l.target, l.key⟩, h.2⟩ else none

/-- The net of nodes and links; a link to or from anything else does not count. -/
def of (ids : List String) (links : List RouteLink) : Net :=
  let nodes := NameSet.ofList ids
  { nodes := nodes.members
    nodup := nodes.nodup
    steps := Table.ofList (nodes.members.map fun n => (n, stepsFrom nodes.members links n)) }

def stepsOf (net : Net) (n : String) : List { s : Step // s.target ∈ net.nodes } := net.steps.getD n []

def inDegree (net : Net) (n : String) : Nat :=
  Number.total (net.steps.values.map fun ss => ss.countP (·.1.target = n))

/-- The nodes where routes start: those that no step leads to, else the first one with the fewest steps to it. -/
def entries (net : Net) : List String :=
  let degrees := net.nodes.map fun n => (n, net.inDegree n)
  match (degrees.filter (·.2 = 0)).map (·.1), degrees with
  | [], d :: ds => [(ds.foldl (fun best e => if e.2 < best.2 then e else best) d).1]
  | sources, _ => sources

/-- The nodes that are not on a path. -/
def off (net : Net) (path : List String) : List String := net.nodes.filter (!path.contains ·)

theorem length_filter_lt {α : Type} {p q : α → Bool} {x : α} : ∀ {xs : List α}, x ∈ xs →
    (∀ y, p y = true → q y = true) → p x = false → q x = true → (xs.filter p).length < (xs.filter q).length
  | y :: ys, hmem, hpq, hp, hq => by
    have hle : (ys.filter p).length ≤ (ys.filter q).length := by
      rw [← List.countP_eq_length_filter, ← List.countP_eq_length_filter]
      exact List.countP_mono_left fun a _ ha => hpq a ha
    rcases List.mem_cons.1 hmem with rfl | hmem
    · simp only [List.filter_cons, hp, hq, if_true, Bool.false_eq_true, if_false, List.length_cons]
      omega
    · have ih := length_filter_lt hmem hpq hp hq
      simp only [List.filter_cons]
      cases hpy : p y with
      | false => cases q y <;> simp <;> omega
      | true => simp [hpq y hpy, ih]

theorem length_off_lt (net : Net) {path : List String} {n : String} (hn : n ∈ net.nodes)
    (hpath : path.contains n = false) : (net.off (n :: path)).length < (net.off path).length := by
  refine length_filter_lt hn ?_ ?_ ?_
  · intro y hy
    simp only [List.contains_cons, Bool.not_eq_eq_eq_not, Bool.not_true, Bool.or_eq_false_iff] at hy
    simpa using hy.2
  · simp
  · simpa using hpath

end Net

/-- Routes in order of discovery, up to a cap. -/
structure Collected where
  /-- The largest number of routes. -/
  cap : Int
  /-- The link keys of each route. -/
  found : Array (List String) := #[]
  /-- The node paths of the routes, each as one text. -/
  seen : Std.HashSet String := ∅

namespace Collected

/-- No further route is taken. -/
def full (c : Collected) : Bool := decide (c.cap ≤ c.found.size)

/-- Takes a route, unless it has no link, it is one of those that were taken or there is no room. -/
def add (c : Collected) (path keys : List String) : Collected :=
  let signature := "->".intercalate path
  if keys.isEmpty || c.full || c.seen.contains signature then c
  else { c with found := c.found.push keys, seen := c.seen.insert signature }

def routes (c : Collected) : List (List String) := c.found.toList

end Collected

/-- The routes of a walk: those that end at a node without a step, and those that close a cycle. -/
structure Harvest where
  terminal : Collected
  loops : Collected

namespace Harvest

def start (cap : Int) : Harvest := ⟨⟨cap, #[], ∅⟩, ⟨cap, #[], ∅⟩⟩

/-- Takes a route to a node without a step; both lists begin at its end. -/
def addTerminal (h : Harvest) (path keys : List String) : Harvest :=
  { h with terminal := h.terminal.add path.reverse keys.reverse }

/-- Takes a route that closes a cycle; both lists begin at its end. -/
def addLoop (h : Harvest) (path keys : List String) : Harvest :=
  { h with loops := h.loops.add path.reverse keys.reverse }

end Harvest

/-- Walks on from the head of `path` by each of the `steps`, as long as there is room. Path and keys begin at their
end. -/
def explore (net : Net) (path keys : List String) (steps : List { s : Step // s.target ∈ net.nodes })
    (h : Harvest) : Harvest :=
  match steps with
  | [] => h
  | s :: rest =>
    if h.terminal.full then h
    else if _hpath : path.contains s.1.target = true then
      explore net path keys rest (h.addLoop (s.1.target :: path) (s.1.key :: keys))
    else if (net.stepsOf s.1.target).isEmpty then
      explore net path keys rest (h.addTerminal (s.1.target :: path) (s.1.key :: keys))
    else
      explore net path keys rest
        (explore net (s.1.target :: path) (s.1.key :: keys) (net.stepsOf s.1.target) h)
termination_by ((net.off path).length, steps.length)
decreasing_by
  all_goals first
    | exact Prod.Lex.right _ (by simp)
    | exact Prod.Lex.left _ _ (net.length_off_lt s.2 (by simpa using _hpath))

def walk (net : Net) (h : Harvest) (entry : String) : Harvest :=
  if h.terminal.full then h else explore net [entry] [] (net.stepsOf entry) h

/-- A route from an entry. -/
structure Route where
  id : Nat
  color : String
  links : NameSet

/-- The routes of a graph. -/
structure Enumeration where
  routes : List Route
  /-- The cap on terminal routes was reached. -/
  truncated : Bool
  entries : Nat
  /-- The number of routes that close a cycle, if they are the ones that are listed. -/
  loopRoutes : Nat

namespace Enumeration

/-- The routes of a list of link keys, numbered and coloured. -/
def number (paths : List (List String)) : List Route :=
  (paths.zipIdx).map fun (keys, i) => ⟨i, Palette.color i, NameSet.ofList keys⟩

/-- The routes of a graph, at most `cap`: those that end at a node without a step, or those that close a cycle if
there are no others. -/
def of (ids : List String) (links : List RouteLink) (cap : Int) : Enumeration :=
  let net := Net.of ids links
  let h := net.entries.foldl (walk net) (Harvest.start cap)
  let terminal := h.terminal.routes
  { routes := number (if terminal.isEmpty then h.loops.routes else terminal)
    truncated := h.terminal.full
    entries := net.entries.length
    loopRoutes := if terminal.isEmpty then h.loops.routes.length else 0 }

end Enumeration
end Plotline
