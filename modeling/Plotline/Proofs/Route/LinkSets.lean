import Plotline.Proofs.Route.Names

/-!
# Routes as sets of links

A route is shown as the set of the keys of its links, which has neither order nor repetition.

* `eq_of_edges_eq`: a path that leaves no node twice is known by its first node and the set of its edges.
* `nodup_pathsOf`: walks come upon no path twice if no two links have the same ends.
* `ToldApart`, `toldApart_analysis`: nodes, links, paths and routes of a story are told apart by their texts.
-/

namespace Plotline
open Layout

/-! ## Edges of a path -/

section Edges
variable {α : Type} {a b x : α} {p q : List α}

theorem mem_dropLast_of_pair (h : [a, b] <:+: p) : a ∈ p.dropLast := by
  obtain ⟨front, back, rfl⟩ := h
  rw [List.append_assoc, List.dropLast_append_of_ne_nil (by simp)]
  simp

/-- What a path passes first, it does not pass again. -/
theorem infix_tail_iff (hx : x ∉ p.dropLast) : [a, b] <:+: p ↔ [a, b] <:+: x :: p ∧ a ≠ x := by
  constructor
  · intro h
    refine ⟨h.trans (List.suffix_cons x p).isInfix, ?_⟩
    rintro rfl
    exact hx (mem_dropLast_of_pair h)
  · rintro ⟨h, hne⟩
    rcases List.infix_cons_iff.1 h with hprefix | hpair
    · exact absurd (List.cons_prefix_cons.1 hprefix).1 hne
    · exact hpair

/-- A path that leaves no node twice is known by its first node and its edges. -/
theorem eq_of_edges_eq : ∀ {p q : List α}, p.dropLast.Nodup → q.dropLast.Nodup → p.head? = q.head? →
    (∀ a b, [a, b] <:+: p ↔ [a, b] <:+: q) → p = q
  | [], _, _, _, hhead, _ => (List.head?_eq_none_iff.1 hhead.symm).symm
  | _ :: _, [], _, _, hhead, _ => nomatch hhead
  | [x], [y], _, _, hhead, _ => by rw [Option.some.inj hhead]
  | [x], y :: z :: q, _, _, _, hedges => by
    have hlength := ((hedges y z).2 (List.prefix_append [y, z] q).isInfix).length_le
    simp at hlength
  | x :: y :: p, [z], _, _, _, hedges => by
    have hlength := ((hedges x y).1 (List.prefix_append [x, y] p).isInfix).length_le
    simp at hlength
  | x :: y :: p, x' :: z :: q, hp, hq, hhead, hedges => by
    obtain rfl := Option.some.inj hhead
    rw [List.dropLast_cons_cons] at hp hq
    obtain ⟨hxp, hp⟩ := List.nodup_cons.1 hp
    obtain ⟨hxq, hq⟩ := List.nodup_cons.1 hq
    -- Only the first edge leaves the first node, so that it is the same for both.
    have hfirst : [x, y] <:+: x :: z :: q := (hedges x y).1 (List.prefix_append [x, y] p).isInfix
    obtain rfl : y = z := by
      rcases List.infix_cons_iff.1 hfirst with hprefix | hpair
      · exact (List.cons_prefix_cons.1 (List.cons_prefix_cons.1 hprefix).2).1
      · exact absurd (mem_dropLast_of_pair hpair) hxq
    rw [eq_of_edges_eq hp hq rfl fun a b => by rw [infix_tail_iff hxp, infix_tail_iff hxq, hedges]]

/-- A node of a path is the first one or has an edge to it. -/
theorem head?_or_exists_pair : ∀ {p : List α}, x ∈ p → p.head? = some x ∨ ∃ a, [a, x] <:+: p
  | y :: p, h => by
    rcases List.mem_cons.1 h with rfl | h
    · exact Or.inl rfl
    · rcases head?_or_exists_pair h with hhead | ⟨a, hpair⟩
      · obtain ⟨p, rfl⟩ : ∃ p', p = x :: p' := List.head?_eq_some_iff.1 hhead
        exact Or.inr ⟨y, (List.prefix_append [y, x] p).isInfix⟩
      · exact Or.inr ⟨a, hpair.trans (List.suffix_cons y p).isInfix⟩

end Edges

/-! ## Keys of a path -/

theorem length_keysAlong : ∀ {p : List String}, p ≠ [] → (keysAlong p).length + 1 = p.length
  | [_], _ => rfl
  | a :: b :: p, _ => by
    have ih := length_keysAlong (List.cons_ne_nil b p)
    rw [keysAlong, List.length_cons, List.length_cons, ih]

section Keys
variable {names : List String} (hfree : SuffixFree names)
include hfree

theorem mem_keysAlong_linkKey {a b : String} (hb : b ∈ names) {p : List String} (hp : p ⊆ names) :
    linkKey a b ∈ keysAlong p ↔ [a, b] <:+: p := by
  rw [mem_keysAlong]
  constructor
  · rintro ⟨c, d, hpair, hkey⟩
    obtain ⟨rfl, rfl⟩ := hfree.linkKey_inj hb (hp (hpair.subset (by simp))) hkey
    exact hpair
  · intro hpair
    exact ⟨a, b, hpair, rfl⟩

/-- No key comes twice along a path that leaves no node twice. -/
theorem nodup_keysAlong : ∀ {p : List String}, p ⊆ names → p.dropLast.Nodup → (keysAlong p).Nodup
  | [], _, _ => List.nodup_nil
  | [_], _, _ => List.nodup_nil
  | a :: b :: p, hnames, hp => by
    have htail : b :: p ⊆ names := fun n hn => hnames (List.mem_cons_of_mem a hn)
    rw [List.dropLast_cons_cons] at hp
    obtain ⟨ha, hp⟩ := List.nodup_cons.1 hp
    rw [keysAlong, List.nodup_cons]
    refine ⟨fun hmem => ha ?_, nodup_keysAlong htail hp⟩
    exact mem_dropLast_of_pair ((mem_keysAlong_linkKey hfree (htail (by simp)) htail).1 hmem)

/-- A path that leaves no node twice is known by its first node and the keys of its links. -/
theorem eq_of_keysAlong_eq {p q : List String} (hpn : p ⊆ names) (hqn : q ⊆ names) (hp : p.dropLast.Nodup)
    (hq : q.dropLast.Nodup) (hhead : p.head? = q.head?) (hkeys : ∀ k, k ∈ keysAlong p ↔ k ∈ keysAlong q) : p = q := by
  refine eq_of_edges_eq hp hq hhead fun a b => ⟨fun h => ?_, fun h => ?_⟩
  · have hb : b ∈ names := hpn (h.subset (by simp))
    exact (mem_keysAlong_linkKey hfree hb hqn).1 ((hkeys _).1 ((mem_keysAlong_linkKey hfree hb hpn).2 h))
  · have hb : b ∈ names := hqn (h.subset (by simp))
    exact (mem_keysAlong_linkKey hfree hb hpn).1 ((hkeys _).2 ((mem_keysAlong_linkKey hfree hb hqn).2 h))

end Keys

/-! ## Walks without repetition -/

section Walk
variable {net : Net} {path : List String} {steps : List { s : Step // s.target ∈ net.nodes }}

theorem head?_of_mem_findsFrom {f : Find} (hf : f ∈ findsFrom net path steps) :
    ∃ a ∈ steps.map (·.1.target), f.path.head? = some a := by
  obtain ⟨a, ha, t, heq, -⟩ := mem_findsFrom.1 hf
  exact ⟨a, ha, by rw [heq]; rfl⟩

/-- A walk comes upon no path twice if no two steps out of a node lead to one node. -/
theorem nodup_findsFrom (hnet : ∀ n, (net.targets n).Nodup) (hsteps : (steps.map (·.1.target)).Nodup) :
    (findsFrom net path steps).Nodup := by
  have hfresh : ∀ {path rest} {s : { s : Step // s.target ∈ net.nodes }}, s.1.target ∉ rest.map (·.1.target) →
      ∀ f ∈ findsFrom net path rest, f.path.head? ≠ some s.1.target := by
    intro path rest s hs f hf hhead
    obtain ⟨a, ha, hfirst⟩ := head?_of_mem_findsFrom hf
    obtain rfl := Option.some.inj (hfirst.symm.trans hhead)
    exact hs ha
  fun_induction findsFrom net path steps with
  | case1 path => exact List.nodup_nil
  | case2 path s rest hpath ih =>
      obtain ⟨hs, hrest⟩ := List.nodup_cons.1 hsteps
      exact List.nodup_cons.2 ⟨fun hmem => hfresh hs _ hmem rfl, ih hrest⟩
  | case3 path s rest hpath hend ih =>
      obtain ⟨hs, hrest⟩ := List.nodup_cons.1 hsteps
      exact List.nodup_cons.2 ⟨fun hmem => hfresh hs _ hmem rfl, ih hrest⟩
  | case4 path s rest hpath hend ih₁ ih₂ =>
      obtain ⟨hs, hrest⟩ := List.nodup_cons.1 hsteps
      refine List.nodup_append.2 ⟨?_, ih₂ hrest, ?_⟩
      · exact (ih₁ (hnet s.1.target)).map (Find.behind_injective [s.1.target])
      · rintro f hf g hg rfl
        obtain ⟨f, -, rfl⟩ := List.mem_map.1 hf
        exact hfresh hs _ hg rfl

/-- Walks come upon no path of one kind twice. -/
theorem nodup_pathsOf (hnet : ∀ n, (net.targets n).Nodup) (hentries : net.entries.Nodup) (closed : Bool) :
    (pathsOf closed (allFinds net)).Nodup := by
  have hfinds : (allFinds net).Nodup := by
    unfold allFinds
    refine List.nodup_flatMap.2 ⟨fun e _ => ?_, hentries.imp fun hne f hf hg => ?_⟩
    · exact (nodup_findsFrom hnet (hnet e)).map (Find.behind_injective [e])
    · obtain ⟨f, -, rfl⟩ := List.mem_map.1 hf
      obtain ⟨g, -, heq⟩ := List.mem_map.1 hg
      exact hne (List.cons.inj (congrArg Find.path heq)).1.symm
  refine (hfinds.filter _).map_on ?_
  intro f hf g hg hpath
  have hclosed : f.closed = g.closed := by
    rw [of_decide_eq_true (List.mem_filter.1 hf).2, of_decide_eq_true (List.mem_filter.1 hg).2]
  rcases f with ⟨p, c⟩
  rcases g with ⟨q, d⟩
  obtain rfl : p = q := hpath
  obtain rfl : c = d := hclosed
  rfl

end Walk

/-! ## Routes -/

section Routes
variable {ids : List String} {links : List RouteLink}

/-- No two steps out of a node lead to one node if no two links have the same ends. -/
theorem nodup_targets (hends : (links.map RouteLink.ends).Nodup) (n : String) :
    ((Net.of ids links).targets n).Nodup := by
  have hedges : (edgesOf links).Nodup := by
    have hmap : edgesOf links = (links.map RouteLink.ends).map fun e => ⟨e.1, e.2⟩ := by
      rw [List.map_map]
      rfl
    rw [hmap]
    exact hends.map fun d e h => Prod.ext (Edge.mk.inj h).1 (Edge.mk.inj h).2
  rw [Net.targets_of]
  refine ((hedges.filter _).filter _).map_on ?_
  intro d hd e he htarget
  have hsource : d.source = e.source := by
    rw [of_decide_eq_true (List.mem_filter.1 hd).2, of_decide_eq_true (List.mem_filter.1 he).2]
  rcases d with ⟨a, b⟩
  rcases e with ⟨a', b'⟩
  obtain rfl : a = a' := hsource
  obtain rfl : b = b' := htarget
  rfl

theorem nodup_firstNodes {edges : List Edge} : (firstNodes ids edges).Nodup := by
  unfold firstNodes
  dsimp only
  split
  · cases ids.find? fun n => ids.all fun m => degree (counted ids edges) n ≤ degree (counted ids edges) m with
    | none => exact List.nodup_nil
    | some n => exact List.nodup_singleton n
  · exact (nodup_eraseDups ids).filter _

namespace IsRoute
variable {edges : List Edge} {p q : List String}

theorem two_le_length : IsRoute ids edges p → 2 ≤ p.length
  | .inl h => h.length
  | .inr ⟨_, h⟩ => by
    obtain ⟨q, z, rfl, -, hz⟩ := h.closes
    have hpos := List.length_pos_of_mem hz
    rw [List.length_append, List.length_singleton]
    omega

theorem nodup_dropLast : IsRoute ids edges p → p.dropLast.Nodup
  | .inl h => h.nodup.sublist (List.dropLast_sublist p)
  | .inr ⟨_, h⟩ => by
    obtain ⟨q, z, rfl, hq, -⟩ := h.closes
    rwa [List.dropLast_concat]

/-- Routes with the same edges begin at the same node: nothing leads to a first node, or there is only one. -/
theorem head?_eq (hp : IsRoute ids edges p) (hq : IsRoute ids edges q)
    (hedges : ∀ a b, [a, b] <:+: p → [a, b] <:+: q) : p.head? = q.head? := by
  obtain ⟨d, hd, hdhead⟩ := hp.begins
  obtain ⟨e, he, hehead⟩ := hq.begins
  by_cases hsource : ∃ n ∈ ids, degree (counted ids edges) n = 0
  · obtain ⟨y, p, rfl⟩ : ∃ y p', p = d :: y :: p' := by
      have hlength := hp.two_le_length
      rcases p with _ | ⟨x, _ | ⟨y, p⟩⟩
      · cases hdhead
      · simp at hlength
      · exact ⟨y, p, by rw [Option.some.inj hdhead]⟩
    have hmem : d ∈ q := (hedges d y (List.prefix_append [d, y] p).isInfix).subset (by simp)
    rw [firstNodes_of_source hsource] at hd
    rcases head?_or_exists_pair hmem with hhead | ⟨a, hpair⟩
    · rw [hdhead, hhead]
    · have hleads : Leads ids edges a d := List.isChain_pair.1 <| List.IsChain.infix hq.chain hpair
      exact absurd hleads (degree_counted_eq_zero.1 (of_decide_eq_true (List.mem_filter.1 hd).2) a)
  · have hnone : ∀ n ∈ ids, degree (counted ids edges) n ≠ 0 := fun n hn hzero => hsource ⟨n, hn, hzero⟩
    rw [firstNodes_of_no_source hnone, Option.mem_toList] at hd he
    rw [hdhead, hehead, ← Option.mem_def.1 hd, ← Option.mem_def.1 he]

theorem eq_of_keys_eq (hfree : SuffixFree ids) (hp : IsRoute ids edges p) (hq : IsRoute ids edges q)
    (hkeys : ∀ k, k ∈ keysAlong p ↔ k ∈ keysAlong q) : p = q := by
  have hpn : p ⊆ ids := fun n hn => hp.mem_ids n hn
  have hqn : q ⊆ ids := fun n hn => hq.mem_ids n hn
  refine eq_of_keysAlong_eq hfree hpn hqn hp.nodup_dropLast hq.nodup_dropLast ?_ hkeys
  refine hp.head?_eq hq fun a b h => ?_
  have hb : b ∈ ids := hpn (h.subset (by simp))
  exact (mem_keysAlong_linkKey hfree hb hqn).1 ((hkeys _).1 ((mem_keysAlong_linkKey hfree hb hpn).2 h))

end IsRoute

section Apart
variable (hfree : SuffixFree ids) (hends : (links.map RouteLink.ends).Nodup)
include hfree hends

/-- No two paths that walks come upon have the same text. -/
theorem nodup_signatures (closed : Bool) :
    ((pathsOf closed (allFinds (Net.of ids links))).map signature).Nodup := by
  have hnodup : (pathsOf closed (allFinds (Net.of ids links))).Nodup := by
    refine nodup_pathsOf (nodup_targets hends) ?_ closed
    rw [Net.entries_of]
    exact nodup_firstNodes
  have hnames : ∀ p ∈ pathsOf closed (allFinds (Net.of ids links)), p ≠ [] ∧ p ⊆ ids := by
    intro p hp
    obtain ⟨hbegins, hchain⟩ : (∃ e ∈ firstNodes ids (edgesOf links), p.head? = some e) ∧
        p.IsChain (Leads ids (edgesOf links)) := by
      cases closed with
      | false => exact ⟨(mem_pathsOf_false.1 hp).begins, (mem_pathsOf_false.1 hp).chain⟩
      | true => exact ⟨(mem_pathsOf_true.1 hp).begins, (mem_pathsOf_true.1 hp).chain⟩
    obtain ⟨e, he, hhead⟩ := hbegins
    refine ⟨fun hnil => by simp [hnil] at hhead, mem_of_isChain_leads hchain fun e' he' => ?_⟩
    obtain rfl := Option.some.inj (hhead.symm.trans he')
    exact mem_of_mem_firstNodes he
  refine hnodup.map_on fun p hp q hq hsig => ?_
  exact hfree.signature_inj (hnames p hp).1 (hnames q hq).1 (hnames p hp).2 (hnames q hq).2 hsig

theorem nodup_signatures_listed : ((listed (Net.of ids links)).map signature).Nodup := by
  unfold listed
  split
  · exact nodup_signatures hfree hends true
  · exact nodup_signatures hfree hends false

/-- The routes of a graph are drawn along its first listed paths, and none is dropped for its text. -/
theorem routes_eq_number (cap : Int) : (Enumeration.of ids links cap).routes =
    Enumeration.number (((listed (Net.of ids links)).take cap.toNat).map keysAlong) := by
  have hnodup := nodup_signatures_listed hfree hends
  have hunlike : unlike (listed (Net.of ids links)) = (listed (Net.of ids links)).eraseDups :=
    eraseDupsBy_key signature _ fun p hp q hq h => List.inj_on_of_nodup_map hnodup hp hq h
  rw [routes_of, hunlike, eraseDups_of_nodup hnodup.of_map]

/-- A route that is reported is the set of the keys along the listed path of its number. -/
theorem exists_listed_of_getElem? {cap : Int} {i : Nat} {r : Route}
    (hr : (Enumeration.of ids links cap).routes[i]? = some r) : ∃ p, (listed (Net.of ids links))[i]? = some p ∧
      r = ⟨i, Palette.color i, NameSet.ofList (keysAlong p)⟩ := by
  rw [routes_eq_number hfree hends, getElem?_number, List.getElem?_map, Option.map_map] at hr
  obtain ⟨p, hp, rfl⟩ := Option.map_eq_some_iff.1 hr
  rw [List.getElem?_take] at hp
  split at hp
  · exact ⟨p, hp, rfl⟩
  · cases hp

theorem eq_of_links_eq {cap : Int} {i j : Nat} {s t : Route} (hs : (Enumeration.of ids links cap).routes[i]? = some s)
    (ht : (Enumeration.of ids links cap).routes[j]? = some t)
    (hlinks : ∀ k, k ∈ s.links.members ↔ k ∈ t.links.members) : i = j := by
  obtain ⟨p, hp, rfl⟩ := exists_listed_of_getElem? hfree hends hs
  obtain ⟨q, hq, rfl⟩ := exists_listed_of_getElem? hfree hends ht
  have hpq : p = q := by
    refine IsRoute.eq_of_keys_eq hfree (mem_listed.1 (List.mem_of_getElem? hp)) (mem_listed.1 (List.mem_of_getElem? hq))
      fun k => ?_
    rw [← Net.mem_members_ofList, hlinks, Net.mem_members_ofList]
  subst hpq
  have hlength : i < (listed (Net.of ids links)).length := (List.getElem?_eq_some_iff.1 hp).1
  exact (List.getElem?_inj hlength (nodup_signatures_listed hfree hends).of_map).1 (hp.trans hq.symm)

end Apart

theorem size_ofList_keysAlong (hfree : SuffixFree ids) {edges : List Edge} {p : List String}
    (hp : IsRoute ids edges p) : (NameSet.ofList (keysAlong p)).size + 1 = p.length := by
  have hnodup := nodup_keysAlong hfree (fun n hn => hp.mem_ids n hn) hp.nodup_dropLast
  rw [NameSet.size, NameSet.members_ofList, eraseDups_of_nodup hnodup, length_keysAlong hp.ne_nil]

end Routes

/-! ## The routes of a story -/

/-- An analysis of routes whose nodes, links, paths and routes are told apart by their texts. -/
structure ToldApart (r : RouteAnalysis) (cap : Int) : Prop where
  nodes : (r.nodes.map (·.node.id)).Nodup
  keys : (r.links.map RouteLink.key).Nodup
  texts : ∀ p q : List String, p ≠ [] → q ≠ [] → p ⊆ r.nodes.map (·.node.id) → q ⊆ r.nodes.map (·.node.id) →
    signature p = signature q → p = q
  /-- No path that a walk comes upon is dropped for its text. -/
  found : ∀ closed,
    ((pathsOf closed (allFinds (Net.of (r.nodes.map (·.node.id)) r.links))).map signature).Nodup
  /-- As many of the paths to list are drawn as there is room for, each with a key for each of its links. -/
  routes : ∃ paths : List (List String), paths.Nodup ∧
    (∀ p, p ∈ paths ↔ IsRoute (r.nodes.map (·.node.id)) (edgesOf r.links) p) ∧
    r.routes.length = min cap.toNat paths.length ∧
    ∀ i route, r.routes[i]? = some route →
      ∃ p, paths[i]? = some p ∧ Draws r.links i p route ∧ route.links.size + 1 = p.length
  apart : ∀ (i j : Nat) (s t : Route), r.routes[i]? = some s → r.routes[j]? = some t →
    (∀ k, k ∈ s.links.members ↔ k ∈ t.links.members) → i = j

/-- If no name of a node ends in another one, routes are told apart. -/
theorem ToldApart.of_suffixFree {r : RouteAnalysis} {cap : Int}
    (hroutes : r.routes = (Enumeration.of (r.nodes.map (·.node.id)) r.links cap).routes)
    (hfree : SuffixFree (r.nodes.map (·.node.id))) (hnodes : (r.nodes.map (·.node.id)).Nodup)
    (hkeys : (r.links.map RouteLink.key).Nodup) (hends : (r.links.map RouteLink.ends).Nodup) : ToldApart r cap where
  nodes := hnodes
  keys := hkeys
  texts := fun _ _ => hfree.signature_inj
  found := nodup_signatures hfree hends
  routes := by
    refine ⟨_, (nodup_signatures_listed hfree hends).of_map, fun p => mem_listed, ?_, fun i route hroute => ?_⟩
    · rw [hroutes, routes_eq_number hfree hends]
      simp [Enumeration.number]
    · rw [hroutes] at hroute
      obtain ⟨p, hp, rfl⟩ := exists_listed_of_getElem? hfree hends hroute
      have hlisted := mem_listed.1 (List.mem_of_getElem? hp)
      exact ⟨p, hp, draws_of_chain hlisted.chain i, size_ofList_keysAlong hfree hlisted⟩
  apart := by
    intro i j s t hs ht hlinks
    rw [hroutes] at hs ht
    exact eq_of_links_eq hfree hends hs ht hlinks

/-- **Nodes, links, paths and routes are told apart by their texts**, if blocks have different ids. -/
theorem toldApart_analysis (blocks : List Block) (settings : Settings) (hids : (blocks.map (·.id)).Nodup) :
    ToldApart (RouteAnalysis.ofAnalysis blocks (Analysis.ofBlocks blocks settings.analysis) settings)
      settings.analysis.maxRoutes := by
  have h := readFrom_analysis blocks settings.analysis hids
  have hnodes : (RouteAnalysis.ofAnalysis blocks (Analysis.ofBlocks blocks settings.analysis) settings).nodes.map
      (·.node.id) = (RouteGraph.of blocks (Analysis.ofBlocks blocks settings.analysis).tables.labels
        (Analysis.ofBlocks blocks settings.analysis).references.jumps settings.analysis).nodes.map (·.id) :=
    List.map_map
  refine ToldApart.of_suffixFree ?_ ?_ ?_ h.nodup_keys (RouteGraph.nodup_ends _ _ _)
  · rw [hnodes]
    rfl
  · rw [hnodes]
    exact h.suffixFree_nodes
  · rw [hnodes]
    exact h.nodup_nodes

theorem toldApart_analysis_crossing :
    (crossing.map (·.id)).Nodup ∧
      ToldApart (RouteAnalysis.ofAnalysis crossing (Analysis.ofBlocks crossing .usual) {})
        AnalysisSettings.usual.maxRoutes := by
  have hids : (crossing.map (·.id)).Nodup := by decide
  exact ⟨hids, toldApart_analysis crossing {} hids⟩

end Plotline
