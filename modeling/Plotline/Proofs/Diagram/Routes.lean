import Mathlib.Data.List.Infix
import Plotline.Diagram.Basic
import Plotline.Proofs.Layers
import Plotline.Proofs.Route.LinkSets

/-!
# Routes in a picture

Layers, routes and pictures look for starts on their own: layers among the edges between nodes, routes among the steps
of a net, and a picture among all links.

* `head?_layers`, `entries_first_layer`: routes begin at the nodes of the first layer.
* `Follows`: a reported route and its path, of which there is one (`RoutesOf.existsUnique_path`).
* `find?_numbered`: the first member of a numbered list with a property is the one with the lowest number.
* `Shows`, `shows_analysis`: what the picture of a story shows of its routes.
-/

namespace Plotline
open Layout

/-! ## The first layer -/

section Layers
variable {ids : List String} {edges : List Edge}

theorem firstNodes_eq_nil : firstNodes ids edges = [] ↔ ids = [] := by
  constructor
  · intro hnone
    rw [firstNodes_eq] at hnone
    rcases hids : ids.eraseDups with _ | ⟨n, ns⟩
    · exact eraseDupsBy_eq_nil.1 hids
    · rw [hids] at hnone
      split at hnone
      · cases hnone
      · rename_i hsources
        exact absurd rfl (hsources n ns hnone)
  · rintro rfl
    rfl

theorem layers_eq_nil : layers ids edges = [] ↔ ids = [] := by
  rw [layers_eq]
  unfold layersFrom
  by_cases hnone : firstNodes ids edges = []
  · obtain rfl := firstNodes_eq_nil.1 hnone
    exact iff_of_true rfl rfl
  · rw [if_neg (by simpa using hnone)]
    exact iff_of_false (List.cons_ne_nil _ _) fun hids => hnone (firstNodes_eq_nil.2 hids)

/-- Routes begin at the nodes of the first layer. -/
theorem head?_layers : (layers ids edges).head?.getD [] = firstNodes ids edges := by
  rw [layers_eq]
  unfold layersFrom
  by_cases hnone : firstNodes ids edges = []
  · obtain rfl := firstNodes_eq_nil.1 hnone
    rfl
  · rw [if_neg (by simpa using hnone)]
    rfl

end Layers

/-- **Routes begin in the first layer.** Without nodes, and only then, there is neither a layer nor an entry. -/
theorem entries_first_layer (ids : List String) (links : List RouteLink) :
    (Net.of ids links).entries = (layers ids (edgesOf links)).head?.getD [] ∧
      ((Net.of ids links).entries = [] ↔ ids = []) ∧ (layers ids (edgesOf links) = [] ↔ ids = []) ∧
      ∀ cap i r, (Enumeration.of ids links cap).routes[i]? = some r →
        ∃ p, IsRoute ids (edgesOf links) p ∧ Draws links i p r ∧
          ∃ e ∈ (layers ids (edgesOf links)).head?.getD [], p.head? = some e := by
  rw [head?_layers, Net.entries_of]
  refine ⟨rfl, firstNodes_eq_nil, layers_eq_nil, ?_⟩
  intro cap i r hr
  obtain ⟨p, hp, hdraws⟩ := exists_path_of_getElem? hr
  exact ⟨p, hp, hdraws, hp.begins⟩

theorem entries_first_layer_exit : ∃ r, (Enumeration.of ["a", "b", "t"] exitLinks 10).routes[0]? = some r ∧
    ∃ p, IsRoute ["a", "b", "t"] (edgesOf exitLinks) p ∧ Draws exitLinks 0 p r ∧
      ∃ e ∈ (layers ["a", "b", "t"] (edgesOf exitLinks)).head?.getD [], p.head? = some e := by
  have hne : (Enumeration.of ["a", "b", "t"] exitLinks 10).routes ≠ [] :=
    (routes_ne_nil_iff _ _ _ (by decide) (by decide)).2 ⟨"a", "b", by decide, by decide⟩
  have hsome := List.getElem?_eq_getElem (List.length_pos_iff.2 hne)
  exact ⟨_, hsome, (entries_first_layer _ _).2.2.2 10 0 _ hsome⟩

/-! ## Reported routes and their paths -/

def RouteAnalysis.names (r : RouteAnalysis) : List String := r.nodes.map (·.node.id)

/-- A route that is reported, and its path. -/
structure Follows (r : RouteAnalysis) (route : Route) (p : List String) : Prop where
  mem : route ∈ r.routes
  isRoute : IsRoute r.names (edgesOf r.links) p
  draws : Draws r.links route.id p route

/-- An analysis of a graph in which links join nodes, and no name of a node ends in another one. -/
structure RoutesOf (r : RouteAnalysis) (cap : Int) : Prop where
  enumeration : r.enumeration = Enumeration.of r.names r.links cap
  free : SuffixFree r.names
  ends : (r.links.map RouteLink.ends).Nodup
  sources : ∀ l ∈ r.links, l.source ∈ r.names
  targets : ∀ l ∈ r.links, l.target ∈ r.names

namespace RoutesOf
variable {r : RouteAnalysis} {cap : Int} (h : RoutesOf r cap)
include h

theorem leads_iff {a b : String} :
    Leads r.names (edgesOf r.links) a b ↔ ∃ l ∈ r.links, l.source = a ∧ l.target = b := by
  unfold Leads
  rw [mem_counted, edgesOf, List.mem_map]
  constructor
  · rintro ⟨⟨l, hl, hedge⟩, -⟩
    obtain ⟨hsource, htarget⟩ := Edge.mk.inj hedge
    exact ⟨l, hl, hsource, htarget⟩
  · rintro ⟨l, hl, rfl, rfl⟩
    exact ⟨⟨l, hl, rfl⟩, h.sources l hl, h.targets l hl⟩

theorem exists_path {i : Nat} {route : Route} (hroute : r.routes[i]? = some route) :
    route.id = i ∧ ∃ p, Follows r route p := by
  have hmem := List.mem_of_getElem? hroute
  unfold RouteAnalysis.routes at hroute
  rw [h.enumeration] at hroute
  obtain ⟨p, hp, hdraws⟩ := exists_path_of_getElem? hroute
  refine ⟨hdraws.id_eq, p, hmem, hp, ?_⟩
  rw [hdraws.id_eq]
  exact hdraws

/-- A route has the key of a link if and only if the link is on its path. -/
theorem contains_key_iff {route : Route} {p : List String} (hp : Follows r route p) {l : RouteLink} (hl : l ∈ r.links) :
    route.links.contains l.key = true ↔ [l.source, l.target] <:+: p := by
  rw [NameSet.contains, List.contains_iff_mem, hp.draws.mem_links]
  constructor
  · rintro ⟨m, hm, hinfix, hkey⟩
    obtain ⟨hsource, htarget⟩ := h.free.linkKey_inj (h.targets m hm) (h.targets l hl) hkey
    rwa [← hsource, ← htarget]
  · intro hinfix
    exact ⟨l, hl, hinfix, rfl⟩

theorem existsUnique_path {route : Route} (hroute : route ∈ r.routes) : ∃! p, Follows r route p := by
  obtain ⟨i, hi⟩ := List.mem_iff_getElem?.1 hroute
  obtain ⟨-, p, hp⟩ := h.exists_path hi
  have hkeys : ∀ {q}, Follows r route q → ∀ k, k ∈ keysAlong q ↔ k ∈ route.links.members := by
    intro q hq k
    rw [← Net.mem_members_ofList, (draws_of_chain hq.isRoute.chain i).mem_links, hq.draws.mem_links]
  refine ⟨p, hp, fun q hq => ?_⟩
  apply IsRoute.eq_of_keys_eq h.free hq.isRoute hp.isRoute
  intro k
  rw [hkeys hq, hkeys hp]

/-! ## Starts and endings -/

/-- If no link leads to some node, no link leads to the first node of a route. -/
theorem begins_at_start {n : String} (hn : n ∈ r.names) (hstart : ∀ l ∈ r.links, l.target ≠ n) {route : Route}
    {p : List String} (hp : Follows r route p) : ∃ e ∈ r.names, (∀ l ∈ r.links, l.target ≠ e) ∧ p.head? = some e := by
  obtain ⟨e, he, hhead⟩ := hp.isRoute.begins
  have hsource : ∃ n ∈ r.names, degree (counted r.names (edgesOf r.links)) n = 0 := by
    refine ⟨n, hn, degree_counted_eq_zero.2 fun a ha => ?_⟩
    obtain ⟨l, hl, -, htarget⟩ := h.leads_iff.1 ha
    exact hstart l hl htarget
  refine ⟨e, mem_of_mem_firstNodes he, ?_, hhead⟩
  rw [firstNodes_of_source hsource, List.mem_filter, decide_eq_true_eq, degree_counted_eq_zero] at he
  intro l hl htarget
  exact he.2 l.source (h.leads_iff.2 ⟨l, hl, rfl, htarget⟩)

/-- Routes that close a cycle are counted unless all reported routes end. -/
theorem loopRoutes_eq_zero_iff : r.enumeration.loopRoutes = 0 ↔
    ∀ route p, Follows r route p → EndsRoute r.names (edgesOf r.links) p := by
  rw [h.enumeration, loopRoutes_of, ← h.enumeration]
  by_cases hnil : pathsOf false (allFinds (Net.of r.names r.links)) = []
  · have hnone := pathsOf_false_eq_nil.1 hnil
    rw [if_pos hnil, List.length_eq_zero_iff]
    constructor
    · intro hempty route p hp
      have hmem : route ∈ r.enumeration.routes := hp.mem
      rw [hempty] at hmem
      cases hmem
    · intro hends
      apply List.eq_nil_iff_forall_not_mem.2
      intro route hroute
      obtain ⟨p, hp, -⟩ := h.existsUnique_path hroute
      exact hnone ⟨p, hends route p hp⟩
  · refine iff_of_true (if_neg hnil) fun route p hp => ?_
    rcases hp.isRoute with hends | ⟨hnone, -⟩
    · exact hends
    · exact absurd (pathsOf_false_eq_nil.2 hnone) hnil

/-- No link leads from the last node of a route that ends. -/
theorem ends_at_ending {p : List String} (hends : EndsRoute r.names (edgesOf r.links) p) :
    ∃ z ∈ r.names, (∀ l ∈ r.links, l.source ≠ z) ∧ p.getLast? = some z := by
  have hroute : IsRoute r.names (edgesOf r.links) p := Or.inl hends
  have hlast := List.getLast?_eq_some_getLast hroute.ne_nil
  refine ⟨_, hroute.mem_ids _ (List.mem_of_getLast? hlast), ?_, hlast⟩
  intro l hl hsource
  exact hends.ends _ hlast l.target (h.leads_iff.2 ⟨l, hl, hsource, rfl⟩)

end RoutesOf

/-! ## Colours -/

/-- In a numbered list, the first member with a property is the one with the lowest number. -/
theorem find?_numbered {α : Type} {xs : List α} {number : α → Nat} (hnumber : ∀ i x, xs[i]? = some x → number x = i)
    {q : α → Bool} {x : α} :
    xs.find? q = some x ↔ x ∈ xs ∧ q x = true ∧ ∀ y ∈ xs, q y = true → number x ≤ number y := by
  rw [List.find?_eq_some_iff_getElem]
  constructor
  · rintro ⟨hx, i, hi, rfl, hfirst⟩
    refine ⟨List.getElem_mem hi, hx, fun y hy hqy => ?_⟩
    obtain ⟨j, hj, rfl⟩ := List.mem_iff_getElem.1 hy
    rw [hnumber i _ (List.getElem?_eq_getElem hi), hnumber j _ (List.getElem?_eq_getElem hj)]
    by_contra hlt
    simpa [hqy] using hfirst j (by omega)
  · rintro ⟨hx, hqx, hlowest⟩
    obtain ⟨i, hi, rfl⟩ := List.mem_iff_getElem.1 hx
    refine ⟨hqx, i, hi, rfl, fun j hj => ?_⟩
    have hj' : j < xs.length := by omega
    by_contra hqj
    have hle := hlowest xs[j] (List.getElem_mem hj') (by simpa using hqj)
    rw [hnumber i _ (List.getElem?_eq_getElem hi), hnumber j _ (List.getElem?_eq_getElem hj')] at hle
    omega

namespace RoutesOf
variable {r : RouteAnalysis} {cap : Int} (h : RoutesOf r cap)
include h

/-- A link has a colour if and only if it is that of the route with the lowest number among those over the link. -/
theorem linkColor?_eq_some_iff {l : RouteLink} (hl : l ∈ r.links) {c : String} :
    Diagram.linkColor? r.routes l.key = some c ↔ ∃ route p, Follows r route p ∧ [l.source, l.target] <:+: p ∧
      route.color = c ∧ ∀ other q, Follows r other q → [l.source, l.target] <:+: q → route.id ≤ other.id := by
  have hnumber : ∀ i route, r.routes[i]? = some route → Route.id route = i := fun i route hi => (h.exists_path hi).1
  rw [Diagram.linkColor?, Option.map_eq_some_iff]
  simp only [find?_numbered hnumber]
  constructor
  · rintro ⟨route, ⟨hroute, hkey, hlowest⟩, hcolor⟩
    obtain ⟨p, hp, -⟩ := h.existsUnique_path hroute
    refine ⟨route, p, hp, (h.contains_key_iff hp hl).1 hkey, hcolor, fun other q hq hinfix => ?_⟩
    exact hlowest other hq.mem ((h.contains_key_iff hq hl).2 hinfix)
  · rintro ⟨route, p, hp, hinfix, hcolor, hlowest⟩
    refine ⟨route, ⟨hp.mem, (h.contains_key_iff hp hl).2 hinfix, fun other hother hkey => ?_⟩, hcolor⟩
    obtain ⟨q, hq, -⟩ := h.existsUnique_path hother
    exact hlowest other q hq ((h.contains_key_iff hq hl).1 hkey)

/-- A link has no colour if and only if it is on no path of a route. -/
theorem linkColor?_eq_none_iff {l : RouteLink} (hl : l ∈ r.links) :
    Diagram.linkColor? r.routes l.key = none ↔ ∀ route p, Follows r route p → ¬ [l.source, l.target] <:+: p := by
  rw [Diagram.linkColor?, Option.map_eq_none_iff, List.find?_eq_none]
  constructor
  · intro hnone route p hp hinfix
    exact hnone route hp.mem ((h.contains_key_iff hp hl).2 hinfix)
  · intro hnone route hroute hkey
    obtain ⟨p, hp, -⟩ := h.existsUnique_path hroute
    exact hnone route p hp ((h.contains_key_iff hp hl).1 hkey)

end RoutesOf

/-! ## Pictures -/

/-- A picture of labels and links that agrees with the routes. -/
structure Shows (r : RouteAnalysis) (d : Diagram) : Prop where
  nodes : d.nodes.map (·.id) = r.names
  edges : d.edges.map (fun e => (e.source, e.target)) = r.links.map RouteLink.ends
  start_iff : ∀ n ∈ d.nodes, n.isStart = true ↔ ∀ l ∈ r.links, l.target ≠ n.id
  ending_iff : ∀ n ∈ d.nodes, n.isEnding = true ↔ ∀ l ∈ r.links, l.source ≠ n.id
  paths : ∀ route ∈ r.routes, ∃! p, Follows r route p
  begins : (∃ n ∈ d.nodes, n.isStart = true) → ∀ route p, Follows r route p →
    ∃ n ∈ d.nodes, n.isStart = true ∧ p.head? = some n.id
  terminal_iff : r.enumeration.loopRoutes = 0 ↔
    ∀ route p, Follows r route p → EndsRoute r.names (edgesOf r.links) p
  ends : r.enumeration.loopRoutes = 0 → ∀ route p, Follows r route p →
    ∃ n ∈ d.nodes, n.isEnding = true ∧ p.getLast? = some n.id
  colored : ∀ e ∈ d.edges, ∀ c, e.color = some c ↔ ∃ route p, Follows r route p ∧ [e.source, e.target] <:+: p ∧
    route.color = c ∧ ∀ other q, Follows r other q → [e.source, e.target] <:+: q → route.id ≤ other.id
  plain : ∀ e ∈ d.edges, e.color = none ↔ ∀ route p, Follows r route p → ¬ [e.source, e.target] <:+: p

theorem mem_nodes_ofRoutes {r : RouteAnalysis} {name : String} (hname : name ∈ r.names) :
    ∃ n ∈ (Diagram.ofRoutes r).nodes, n.id = name := by
  obtain ⟨n, hn, rfl⟩ := List.mem_map.1 hname
  exact ⟨_, List.mem_map_of_mem hn, rfl⟩

theorem isStart_iff {r : RouteAnalysis} {n : DiagramNode} (hn : n ∈ (Diagram.ofRoutes r).nodes) :
    n.isStart = true ↔ ∀ l ∈ r.links, l.target ≠ n.id := by
  obtain ⟨m, -, rfl⟩ := List.mem_map.1 hn
  simp

theorem isEnding_iff {r : RouteAnalysis} {n : DiagramNode} (hn : n ∈ (Diagram.ofRoutes r).nodes) :
    n.isEnding = true ↔ ∀ l ∈ r.links, l.source ≠ n.id := by
  obtain ⟨m, -, rfl⟩ := List.mem_map.1 hn
  simp

theorem RoutesOf.shows {r : RouteAnalysis} {cap : Int} (h : RoutesOf r cap) : Shows r (Diagram.ofRoutes r) where
  nodes := List.map_map
  edges := List.map_map
  start_iff := fun n hn => isStart_iff hn
  ending_iff := fun n hn => isEnding_iff hn
  paths := fun route hroute => h.existsUnique_path hroute
  begins := by
    rintro ⟨n, hn, hstart⟩ route p hp
    have hname : n.id ∈ r.names := by
      obtain ⟨m, hm, rfl⟩ := List.mem_map.1 hn
      exact List.mem_map_of_mem hm
    obtain ⟨e, he, hnone, hhead⟩ := h.begins_at_start hname ((isStart_iff hn).1 hstart) hp
    obtain ⟨k, hk, rfl⟩ := mem_nodes_ofRoutes he
    exact ⟨k, hk, (isStart_iff hk).2 hnone, hhead⟩
  terminal_iff := h.loopRoutes_eq_zero_iff
  ends := by
    intro hloops route p hp
    obtain ⟨z, hz, hnone, hlast⟩ := h.ends_at_ending (h.loopRoutes_eq_zero_iff.1 hloops route p hp)
    obtain ⟨k, hk, rfl⟩ := mem_nodes_ofRoutes hz
    exact ⟨k, hk, (isEnding_iff hk).2 hnone, hlast⟩
  colored := by
    intro e he c
    obtain ⟨l, hl, rfl⟩ := List.mem_map.1 he
    exact h.linkColor?_eq_some_iff hl
  plain := by
    intro e he
    obtain ⟨l, hl, rfl⟩ := List.mem_map.1 he
    exact h.linkColor?_eq_none_iff hl

/-! ## The picture of a story -/

theorem routesOf_analysis (blocks : List Block) (settings : Settings) (hids : (blocks.map (·.id)).Nodup) :
    RoutesOf (RouteAnalysis.ofAnalysis blocks (Analysis.ofBlocks blocks settings.analysis) settings)
      settings.analysis.maxRoutes := by
  have h := readFrom_analysis blocks settings.analysis hids
  have hnames : (RouteAnalysis.ofAnalysis blocks (Analysis.ofBlocks blocks settings.analysis) settings).names =
      (RouteGraph.of blocks (Analysis.ofBlocks blocks settings.analysis).tables.labels
        (Analysis.ofBlocks blocks settings.analysis).references.jumps settings.analysis).nodes.map (·.id) :=
    List.map_map
  constructor
  · rw [hnames]
    rfl
  · rw [hnames]
    exact h.suffixFree_nodes
  · exact RouteGraph.nodup_ends _ _ _
  · intro l hl
    obtain ⟨⟨m, hm, hsource⟩, -⟩ := h.ends_listed hl
    rw [hnames, ← hsource]
    exact List.mem_map_of_mem hm
  · intro l hl
    obtain ⟨-, n, hn, htarget⟩ := h.ends_listed hl
    rw [hnames, ← htarget]
    exact List.mem_map_of_mem hn

/-- **The picture of a story agrees with its routes**, if blocks have different ids. -/
theorem shows_analysis (blocks : List Block) (settings : Settings) (hids : (blocks.map (·.id)).Nodup) :
    Shows (RouteAnalysis.ofAnalysis blocks (Analysis.ofBlocks blocks settings.analysis) settings)
      (Diagram.ofRoutes
        (RouteAnalysis.ofAnalysis blocks (Analysis.ofBlocks blocks settings.analysis) settings)) :=
  (routesOf_analysis blocks settings hids).shows

/-- Two ways from the start to the end, one of them by the left. -/
def twoWays : List Block :=
  [{ id := "a-b", content := "label start:\n jump left\n jump end\nlabel left:\n jump end\nlabel end:\n return\n" }]

theorem routes_twoWays :
    (RouteAnalysis.ofAnalysis twoWays (Analysis.ofBlocks twoWays .usual) {}).routes ≠ [] := by
  have h := readFrom_analysis twoWays .usual (by decide)
  have hnames : (RouteGraph.of twoWays (Analysis.ofBlocks twoWays .usual).tables.labels
      (Analysis.ofBlocks twoWays .usual).references.jumps .usual).nodes.map (·.id) =
        ["a-b:start", "a-b:left", "a-b:end"] :=
    (congrArg (List.map RouteNode.id) h.nodes_eq).trans (by decide +kernel)
  have hlinks : (RouteGraph.of twoWays (Analysis.ofBlocks twoWays .usual).tables.labels
      (Analysis.ofBlocks twoWays .usual).references.jumps .usual).links =
        [⟨"a-b:start", "a-b:left", .jump⟩, ⟨"a-b:start", "a-b:end", .jump⟩, ⟨"a-b:left", "a-b:end", .jump⟩] :=
    h.links_eq.trans (by decide +kernel)
  show (Enumeration.of _ _ _).routes ≠ []
  rw [hnames, hlinks, Ne, routes_eq_nil_iff (by decide)]
  intro hnone
  exact hnone "a-b:start" (by decide) "a-b:left" (by decide)

theorem shows_analysis_twoWays : (twoWays.map (·.id)).Nodup ∧
    (RouteAnalysis.ofAnalysis twoWays (Analysis.ofBlocks twoWays .usual) {}).routes ≠ [] ∧
    Shows (RouteAnalysis.ofAnalysis twoWays (Analysis.ofBlocks twoWays .usual) {})
      (Diagram.ofRoutes (RouteAnalysis.ofAnalysis twoWays (Analysis.ofBlocks twoWays .usual) {})) := by
  have hids : (twoWays.map (·.id)).Nodup := by decide
  exact ⟨hids, routes_twoWays, shows_analysis twoWays {} hids⟩

end Plotline
