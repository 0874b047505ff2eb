import Plotline.Proofs.Occurrence
import Plotline.Proofs.Route.Kept

/-!
# The graph of routes of a story

* `LandsOn`, `JumpsTo`, `RunsInto`: where a name leads, which jumps lead from one plain label to another, and when
  control runs from one into the next.
* `IsRouteGraph`: what the graph of routes of a list of blocks should be.
* `RouteGraph.drawn`, `RouteGraph.links_drawn`: the graph of blocks that are read; its links are the first of their ends
  among those that the blocks propose.
* `Lists`: tables that list what blocks define, every name once.
* `Lists.kept_eq`, `Lists.makes_iff`: such tables keep every plain label, and so every jump between two of them.
* `Lists.isRouteGraph`: the graph that is drawn from such tables.
* `isRouteGraph_of_analysis`: the graph of an analysis.
-/

namespace Plotline
open Script

/-! ## What should be drawn -/

/-- The plain label that a name leads to. A named menu is a part of the plain label around it. -/
inductive LandsOn (blocks : List Block) (name : String) (t : LabelSite) : Prop
  | label {b : Block} : b ∈ blocks → t ∈ b.plainLabels → t.label = name → LandsOn blocks name t
  | menu {b : Block} {m : LabelSite} :
      b ∈ blocks → m ∈ b.namedMenus → m.label = name → b.Encloses m.line t → LandsOn blocks name t

/-- A jump or call of a block, not computed, from the text of one plain label to another. -/
structure JumpsTo (blocks : List Block) (b : Block) (s t : LabelSite) (j : Jump) : Prop where
  mem : j ∈ b.jumps
  static : j.dynamic = false
  source : b.Encloses j.line s
  target : LandsOn blocks j.target t

/-- Control runs from a plain label of a block into the next one. -/
structure RunsInto (b : Block) (s t : LabelSite) : Prop where
  next : [s, t] <:+: b.plainLabels
  runs : hasTerminal (b.linesBetween s.line t.line) = false

def RouteLink.ends (l : RouteLink) : String × String := (l.source, l.target)

/-- The graph of routes of a list of blocks. -/
structure IsRouteGraph (blocks : List Block) (g : RouteGraph) : Prop where
  nodes_eq : g.nodes = blocks.flatMap fun b => b.plainLabels.map fun s => ⟨s.node, b.id, s.label, s.line, b.caption⟩
  ends_mem : ∀ l ∈ g.links, ∃ b ∈ blocks, ∃ s ∈ b.plainLabels, ∃ c ∈ blocks, ∃ t ∈ c.plainLabels,
    l.ends = (s.node, t.node)
  ends_nodup : (g.links.map RouteLink.ends).Nodup
  linked_iff : ∀ b ∈ blocks, ∀ s ∈ b.plainLabels, ∀ c ∈ blocks, ∀ t ∈ c.plainLabels,
    (∃ l ∈ g.links, l.ends = (s.node, t.node)) ↔ (∃ j, JumpsTo blocks b s t j) ∨ RunsInto b s t
  kind_of_jump : ∀ b ∈ blocks, ∀ s t front j back, b.jumps = front ++ j :: back → JumpsTo blocks b s t j →
    (∀ k ∈ front, ¬ JumpsTo blocks b s t k) → ∀ l ∈ g.links, l.ends = (s.node, t.node) →
      l.kind = RouteKind.ofJump j.kind
  kind_of_no_jump : ∀ b ∈ blocks, ∀ s ∈ b.plainLabels, ∀ c ∈ blocks, ∀ t ∈ c.plainLabels,
    (∀ j, ¬ JumpsTo blocks b s t j) → ∀ l ∈ g.links, l.ends = (s.node, t.node) → l.kind = .implicit
  explicit_first : ∀ b ∈ blocks, g.links.Pairwise fun l m =>
    l.source ∈ b.plainLabels.map LabelSite.node → m.source ∈ b.plainLabels.map LabelSite.node →
      l.kind = .implicit → m.kind = .implicit

/-! ## Blocks one by one -/

namespace RouteGraph
variable (labels : Table String LabelSite) (jumps : Table String (List Jump))

def nodesOf (b : Block) : List RouteNode :=
  (spansOf labels b.id).map fun s => ⟨s.node, b.id, s.label, s.line, b.caption⟩

/-- The links that a block proposes. -/
def proposals (b : Block) : List RouteLink :=
  (jumps.getD b.id []).filterMap (jumpLink? labels (spansOf labels b.id)) ++ implicitLinks b (spansOf labels b.id)

theorem nodes_foldl_addLink : ∀ (ls : List RouteLink) (g : RouteGraph), (ls.foldl addLink g).nodes = g.nodes
  | [], _ => rfl
  | l :: ls, g => by
    rw [List.foldl_cons, nodes_foldl_addLink ls]
    rfl

theorem linkTable_foldl_addLink : ∀ (ls : List RouteLink) (g : RouteGraph),
    (ls.foldl addLink g).linkTable = ls.foldl (fun t l => t.insertNew l.ends l) g.linkTable
  | [], _ => rfl
  | l :: ls, g => by
    rw [List.foldl_cons, linkTable_foldl_addLink ls, List.foldl_cons]
    rfl

theorem nodes_foldl_addBlock : ∀ (bs : List Block) (g : RouteGraph),
    (bs.foldl (addBlock labels jumps) g).nodes = g.nodes ++ bs.flatMap (nodesOf labels)
  | [], g => (List.append_nil g.nodes).symm
  | b :: bs, g => by
    have hstep : (addBlock labels jumps g b).nodes = g.nodes ++ nodesOf labels b := nodes_foldl_addLink _ _
    rw [List.foldl_cons, nodes_foldl_addBlock bs, hstep, List.flatMap_cons, List.append_assoc]

theorem linkTable_foldl_addBlock : ∀ (bs : List Block) (g : RouteGraph),
    (bs.foldl (addBlock labels jumps) g).linkTable =
      (bs.flatMap (proposals labels jumps)).foldl (fun t l => t.insertNew l.ends l) g.linkTable
  | [], _ => rfl
  | b :: bs, g => by
    have hstep : (addBlock labels jumps g b).linkTable =
        (proposals labels jumps b).foldl (fun t l => t.insertNew l.ends l) g.linkTable := linkTable_foldl_addLink _ _
    rw [List.foldl_cons, linkTable_foldl_addBlock bs, hstep, List.flatMap_cons, List.foldl_append]

def drawn (bs : List Block) : RouteGraph := bs.foldl (addBlock labels jumps) {}

theorem nodes_drawn (bs : List Block) : (drawn labels jumps bs).nodes = bs.flatMap (nodesOf labels) :=
  nodes_foldl_addBlock labels jumps bs {}

/-- The links are the first of their ends among those that the blocks propose. -/
theorem links_drawn (bs : List Block) : (drawn labels jumps bs).links =
    (bs.flatMap (proposals labels jumps)).eraseDupsBy fun l m => l.ends == m.ends := by
  unfold links drawn
  rw [linkTable_foldl_addBlock]
  exact Table.values_foldl_insertNew_empty RouteLink.ends _

theorem nodup_ends (bs : List Block) : ((drawn labels jumps bs).links.map RouteLink.ends).Nodup := by
  rw [links_drawn]
  exact nodup_map_eraseDupsBy RouteLink.ends _

variable {labels jumps}

theorem exists_proposal_of_mem_links {bs : List Block} {l : RouteLink}
    (hl : l ∈ (drawn labels jumps bs).links) : ∃ b ∈ bs, l ∈ proposals labels jumps b := by
  rw [links_drawn] at hl
  exact List.mem_flatMap.1 ((eraseDupsBy_sublist _ _).subset hl)

theorem exists_link_of_mem_proposals {bs : List Block} {b : Block} (hb : b ∈ bs) {l : RouteLink}
    (hl : l ∈ proposals labels jumps b) : ∃ m ∈ (drawn labels jumps bs).links, m.ends = l.ends := by
  rw [links_drawn]
  exact exists_mem_eraseDupsBy_key RouteLink.ends (List.mem_flatMap.2 ⟨b, hb, hl⟩)

end RouteGraph

namespace ReadFrom
variable {blocks : List Block} {labels : Table String LabelSite} {jumps : Table String (List Jump)}

theorem eq_of_node_eq (h : ReadFrom blocks labels jumps) {b c : Block} (hb : b ∈ blocks) (hc : c ∈ blocks)
    {s t : LabelSite} (hs : s ∈ b.kept labels) (ht : t ∈ c.kept labels) (hnode : s.node = t.node) : b = c ∧ s = t := by
  obtain ⟨hs', hgets⟩ := Block.mem_kept.1 hs
  obtain ⟨ht', hgett⟩ := Block.mem_kept.1 ht
  have hsmem := (Block.mem_plainLabels.1 hs').1
  have htmem := (Block.mem_plainLabels.1 ht').1
  obtain ⟨hblock, hlabel⟩ := nodeId_inj (Block.colon_notMem_label hsmem) (Block.colon_notMem_label htmem) hnode
  rw [hlabel, hgett] at hgets
  refine ⟨List.inj_on_of_nodup_map h.ids hb hc ?_, (Option.some.inj hgets).symm⟩
  rw [← Block.block_of_mem_labels hsmem, ← Block.block_of_mem_labels htmem, hblock]

/-- The nodes are the plain labels that the table keeps, by block and line. -/
theorem nodes_eq (h : ReadFrom blocks labels jumps) : (RouteGraph.drawn labels jumps blocks).nodes =
    blocks.flatMap fun b => (b.kept labels).map fun s => ⟨s.node, b.id, s.label, s.line, b.caption⟩ := by
  rw [RouteGraph.nodes_drawn]
  refine List.flatMap_congr fun b hb => ?_
  unfold RouteGraph.nodesOf
  rw [h.spansOf_eq hb, List.map_map]
  rfl

theorem mem_explicit_iff (h : ReadFrom blocks labels jumps) {b : Block} (hb : b ∈ blocks) {l : RouteLink} :
    l ∈ (jumps.getD b.id []).filterMap (RouteGraph.jumpLink? labels (spansOf labels b.id)) ↔
      ∃ s t j, Makes blocks labels b s t j ∧ l = ⟨s.node, t.node, RouteKind.ofJump j.kind⟩ := by
  rw [h.jumps_eq b hb, List.mem_filterMap]
  constructor
  · rintro ⟨j, hj, hl⟩
    obtain ⟨s, t, hmakes, rfl⟩ := (h.jumpLink?_eq_some_iff hb hj).1 hl
    exact ⟨s, t, j, hmakes, rfl⟩
  · rintro ⟨s, t, j, hmakes, rfl⟩
    exact ⟨j, hmakes.mem, (h.jumpLink?_eq_some_iff hb hmakes.mem).2 ⟨s, t, hmakes, rfl⟩⟩

theorem ends_of_mem_proposals (h : ReadFrom blocks labels jumps) {b : Block} (hb : b ∈ blocks) {l : RouteLink}
    (hl : l ∈ RouteGraph.proposals labels jumps b) :
    ∃ s ∈ b.kept labels, ∃ c ∈ blocks, ∃ t ∈ c.kept labels, l.ends = (s.node, t.node) := by
  rcases List.mem_append.1 hl with hl | hl
  · obtain ⟨s, t, j, hmakes, rfl⟩ := (h.mem_explicit_iff hb).1 hl
    obtain ⟨c, hc, ht⟩ := hmakes.target.exists_mem
    exact ⟨s, hmakes.source.mem, c, hc, t, ht, rfl⟩
  · obtain ⟨s, t, hnext, -, rfl⟩ := (h.mem_implicitLinks_iff hb).1 hl
    exact ⟨s, hnext.subset (by simp), b, hb, t, hnext.subset (by simp), rfl⟩

end ReadFrom

/-! ## Tables of what blocks define -/

/-- Tables that list what blocks define, every name once. -/
structure Lists (blocks : List Block) (labels : Table String LabelSite) (jumps : Table String (List Jump)) : Prop where
  ids : (blocks.map (·.id)).Nodup
  names : (blocks.flatMap fun b => b.facts.labels.map (·.label)).Nodup
  labels_eq : labels.entries = (blocks.flatMap (·.facts.labels)).map fun s => (s.label, s)
  jumps_eq : ∀ b ∈ blocks, jumps.getD b.id [] = b.jumps

theorem LandsOn.exists_mem {blocks : List Block} {name : String} {t : LabelSite} :
    LandsOn blocks name t → ∃ c ∈ blocks, t ∈ c.plainLabels
  | .label hb ht _ => ⟨_, hb, ht⟩
  | .menu hb _ _ ht => ⟨_, hb, ht.mem⟩

namespace Lists
variable {blocks : List Block} {labels : Table String LabelSite} {jumps : Table String (List Jump)}

theorem get?_eq_some_iff (h : Lists blocks labels jumps) {name : String} {s : LabelSite} :
    labels.get? name = some s ↔ (∃ b ∈ blocks, s ∈ b.facts.labels) ∧ s.label = name := by
  rw [← Table.mem_entries_iff, h.labels_eq, List.mem_map]
  constructor
  · rintro ⟨s', hs, heq⟩
    obtain ⟨rfl, rfl⟩ := Prod.mk.inj heq
    exact ⟨List.mem_flatMap.1 hs, rfl⟩
  · rintro ⟨hs, rfl⟩
    exact ⟨s, List.mem_flatMap.2 hs, rfl⟩

theorem readFrom (h : Lists blocks labels jumps) : ReadFrom blocks labels jumps :=
  ⟨h.ids, fun _ _ hs => (h.get?_eq_some_iff.1 hs).symm, h.jumps_eq⟩

theorem kept_eq (h : Lists blocks labels jumps) {b : Block} (hb : b ∈ blocks) : b.kept labels = b.plainLabels := by
  refine List.filter_eq_self.2 fun s hs => decide_eq_true ?_
  exact h.get?_eq_some_iff.2 ⟨⟨b, hb, (Block.mem_plainLabels.1 hs).1⟩, rfl⟩

theorem eq_of_node_eq (h : Lists blocks labels jumps) {b c : Block} (hb : b ∈ blocks) (hc : c ∈ blocks)
    {s t : LabelSite} (hs : s ∈ b.plainLabels) (ht : t ∈ c.plainLabels) (hnode : s.node = t.node) : b = c ∧ s = t :=
  h.readFrom.eq_of_node_eq hb hc (h.kept_eq hb ▸ hs) (h.kept_eq hc ▸ ht) hnode

theorem keptAbove_iff (h : Lists blocks labels jumps) {b : Block} (hb : b ∈ blocks) {line : Int} {s : LabelSite} :
    b.KeptAbove labels line s ↔ b.Encloses line s :=
  Block.keptAbove_iff_encloses (h.kept_eq hb)

theorem leadsTo_iff (h : Lists blocks labels jumps) {name : String} {t : LabelSite} :
    LeadsTo blocks labels name t ↔ LandsOn blocks name t := by
  constructor
  · intro hleads
    cases hleads with
    | label hc ht hname => exact .label hc (h.kept_eq hc ▸ ht) hname
    | menu hc hm hget ht => exact .menu hc hm (h.get?_eq_some_iff.1 hget).2 ((h.keptAbove_iff hc).1 ht)
  · intro hlands
    cases hlands with
    | label hc ht hname => exact .label hc (h.kept_eq hc ▸ ht) hname
    | menu hc hm hname ht =>
        have hget := h.get?_eq_some_iff.2 ⟨⟨_, hc, (Block.mem_namedMenus.1 hm).1⟩, hname⟩
        exact .menu hc hm hget ((h.keptAbove_iff hc).2 ht)

theorem makes_iff (h : Lists blocks labels jumps) {b : Block} (hb : b ∈ blocks) {s t : LabelSite} {j : Jump} :
    Makes blocks labels b s t j ↔ JumpsTo blocks b s t j := by
  constructor
  · rintro ⟨hmem, hstatic, hsource, htarget⟩
    exact ⟨hmem, hstatic, (h.keptAbove_iff hb).1 hsource, h.leadsTo_iff.1 htarget⟩
  · rintro ⟨hmem, hstatic, hsource, htarget⟩
    exact ⟨hmem, hstatic, (h.keptAbove_iff hb).2 hsource, h.leadsTo_iff.2 htarget⟩

theorem jumpLink?_eq_some_iff (h : Lists blocks labels jumps) {b : Block} (hb : b ∈ blocks)
    {j : Jump} (hj : j ∈ b.jumps)
    {l : RouteLink} : RouteGraph.jumpLink? labels (spansOf labels b.id) j = some l ↔
      ∃ s t, JumpsTo blocks b s t j ∧ l = ⟨s.node, t.node, RouteKind.ofJump j.kind⟩ := by
  simp only [h.readFrom.jumpLink?_eq_some_iff hb hj, h.makes_iff hb]

theorem mem_implicitLinks_iff (h : Lists blocks labels jumps) {b : Block} (hb : b ∈ blocks) {l : RouteLink} :
    l ∈ RouteGraph.implicitLinks b (spansOf labels b.id) ↔
      ∃ s t, RunsInto b s t ∧ l = ⟨s.node, t.node, .implicit⟩ := by
  rw [h.readFrom.mem_implicitLinks_iff hb, h.kept_eq hb]
  constructor
  · rintro ⟨s, t, hnext, hends, hl⟩
    exact ⟨s, t, ⟨hnext, hends⟩, hl⟩
  · rintro ⟨s, t, ⟨hnext, hends⟩, hl⟩
    exact ⟨s, t, hnext, hends, hl⟩

/-! ## The links of a block -/

theorem mem_explicit_iff (h : Lists blocks labels jumps) {b : Block} (hb : b ∈ blocks) {l : RouteLink} :
    l ∈ (jumps.getD b.id []).filterMap (RouteGraph.jumpLink? labels (spansOf labels b.id)) ↔
      ∃ s t j, JumpsTo blocks b s t j ∧ l = ⟨s.node, t.node, RouteKind.ofJump j.kind⟩ := by
  simp only [h.readFrom.mem_explicit_iff hb, h.makes_iff hb]

theorem ends_of_mem_proposals (h : Lists blocks labels jumps) {b : Block} (hb : b ∈ blocks) {l : RouteLink}
    (hl : l ∈ RouteGraph.proposals labels jumps b) :
    ∃ s ∈ b.plainLabels, ∃ c ∈ blocks, ∃ t ∈ c.plainLabels, l.ends = (s.node, t.node) := by
  obtain ⟨s, hs, c, hc, t, ht, hends⟩ := h.readFrom.ends_of_mem_proposals hb hl
  exact ⟨s, h.kept_eq hb ▸ hs, c, hc, t, h.kept_eq hc ▸ ht, hends⟩

theorem jumpsTo_of_ends_eq (h : Lists blocks labels jumps) {b c : Block} (hb : b ∈ blocks) (hc : c ∈ blocks)
    {s t : LabelSite} (hs : s ∈ b.plainLabels) (ht : t ∈ c.plainLabels) {s' t' : LabelSite} {j : Jump}
    (hjump : JumpsTo blocks b s' t' j) (hends : (s'.node, t'.node) = (s.node, t.node)) : JumpsTo blocks b s t j := by
  obtain ⟨hsource, htarget⟩ := Prod.mk.inj hends
  obtain ⟨c', hc', ht'⟩ := hjump.target.exists_mem
  obtain ⟨-, rfl⟩ := h.eq_of_node_eq hb hb hjump.source.mem hs hsource
  obtain ⟨-, rfl⟩ := h.eq_of_node_eq hc' hc ht' ht htarget
  exact hjump

/-- Two plain labels are linked by a proposal of the first one's block if a jump leads from one to the other or
control runs from one into the other. -/
theorem exists_proposal_iff (h : Lists blocks labels jumps) {b c : Block} (hb : b ∈ blocks) (hc : c ∈ blocks)
    {s t : LabelSite} (hs : s ∈ b.plainLabels) (ht : t ∈ c.plainLabels) :
    (∃ l ∈ RouteGraph.proposals labels jumps b, l.ends = (s.node, t.node)) ↔
      (∃ j, JumpsTo blocks b s t j) ∨ RunsInto b s t := by
  constructor
  · rintro ⟨l, hl, hends⟩
    rcases List.mem_append.1 hl with hl | hl
    · obtain ⟨s', t', j, hjump, rfl⟩ := (h.mem_explicit_iff hb).1 hl
      exact Or.inl ⟨j, h.jumpsTo_of_ends_eq hb hc hs ht hjump hends⟩
    · obtain ⟨s', t', hruns, rfl⟩ := (h.mem_implicitLinks_iff hb).1 hl
      obtain ⟨hsource, htarget⟩ := Prod.mk.inj hends
      obtain ⟨-, rfl⟩ := h.eq_of_node_eq hb hb (hruns.next.subset (by simp)) hs hsource
      obtain ⟨-, rfl⟩ := h.eq_of_node_eq hb hc (hruns.next.subset (by simp)) ht htarget
      exact Or.inr hruns
  · rintro (⟨j, hjump⟩ | hruns)
    · exact ⟨_, List.mem_append_left _ ((h.mem_explicit_iff hb).2 ⟨s, t, j, hjump, rfl⟩), rfl⟩
    · exact ⟨_, List.mem_append_right _ ((h.mem_implicitLinks_iff hb).2 ⟨s, t, hruns, rfl⟩), rfl⟩

/-- Of the links out of a plain label, those are drawn that come first among the proposals of its block. -/
theorem mem_links_iff (h : Lists blocks labels jumps) {b : Block} (hb : b ∈ blocks) {s : LabelSite}
    (hs : s ∈ b.plainLabels) {l : RouteLink} (hl : l.source = s.node) :
    l ∈ (RouteGraph.drawn labels jumps blocks).links ↔
      (RouteGraph.proposals labels jumps b).find? (fun m => m.ends == l.ends) = some l := by
  have hother : ∀ c ∈ blocks, c.id ≠ b.id → ∀ m ∈ RouteGraph.proposals labels jumps c, (m.ends == l.ends) = false := by
    intro c hc hne m hm
    obtain ⟨s', hs', -, -, t, -, hends⟩ := h.ends_of_mem_proposals hc hm
    refine beq_false_of_ne fun heq => hne ?_
    have hsource : s'.node = s.node := by
      rw [← hl, ← (Prod.mk.inj (hends.symm.trans heq)).1]
    rw [(h.eq_of_node_eq hc hb hs' hs hsource).1]
  rw [RouteGraph.links_drawn, mem_eraseDupsBy_key RouteLink.ends, ← List.head?_filter,
    filter_flatMap_of_key h.ids hb hother, List.head?_filter]

/-! ## The graph -/

theorem nodes_eq (h : Lists blocks labels jumps) : (RouteGraph.drawn labels jumps blocks).nodes =
    blocks.flatMap fun b => b.plainLabels.map fun s => ⟨s.node, b.id, s.label, s.line, b.caption⟩ := by
  rw [h.readFrom.nodes_eq]
  refine List.flatMap_congr fun b hb => ?_
  rw [h.kept_eq hb]

theorem ends_mem (h : Lists blocks labels jumps) {l : RouteLink}
    (hl : l ∈ (RouteGraph.drawn labels jumps blocks).links) :
    ∃ b ∈ blocks, ∃ s ∈ b.plainLabels, ∃ c ∈ blocks, ∃ t ∈ c.plainLabels, l.ends = (s.node, t.node) := by
  obtain ⟨b, hb, hmem⟩ := RouteGraph.exists_proposal_of_mem_links hl
  exact ⟨b, hb, h.ends_of_mem_proposals hb hmem⟩

theorem linked_iff (h : Lists blocks labels jumps) {b c : Block} (hb : b ∈ blocks) (hc : c ∈ blocks) {s t : LabelSite}
    (hs : s ∈ b.plainLabels) (ht : t ∈ c.plainLabels) :
    (∃ l ∈ (RouteGraph.drawn labels jumps blocks).links, l.ends = (s.node, t.node)) ↔
      (∃ j, JumpsTo blocks b s t j) ∨ RunsInto b s t := by
  rw [← h.exists_proposal_iff hb hc hs ht]
  constructor
  · rintro ⟨l, hl, hends⟩
    have hfind := (h.mem_links_iff hb hs (Prod.mk.inj hends).1).1 hl
    exact ⟨l, List.mem_of_find?_eq_some hfind, hends⟩
  · rintro ⟨l, hl, hends⟩
    obtain ⟨m, hm, heq⟩ := RouteGraph.exists_link_of_mem_proposals hb hl
    exact ⟨m, hm, heq.trans hends⟩

theorem kind_of_jump (h : Lists blocks labels jumps) {b : Block} (hb : b ∈ blocks) {s t : LabelSite}
    {front back : List Jump} {j : Jump} (hsplit : b.jumps = front ++ j :: back) (hjump : JumpsTo blocks b s t j)
    (hfirst : ∀ k ∈ front, ¬ JumpsTo blocks b s t k) {l : RouteLink}
    (hl : l ∈ (RouteGraph.drawn labels jumps blocks).links) (hends : l.ends = (s.node, t.node)) :
    l.kind = RouteKind.ofJump j.kind := by
  have hs := hjump.source.mem
  obtain ⟨c, hc, ht⟩ := hjump.target.exists_mem
  have hfind := (h.mem_links_iff hb hs (Prod.mk.inj hends).1).1 hl
  have hmade := (h.jumpLink?_eq_some_iff hb hjump.mem).2 ⟨s, t, hjump, rfl⟩
  have hfront : (front.filterMap (RouteGraph.jumpLink? labels (spansOf labels b.id))).find?
      (fun m => m.ends == l.ends) = none := by
    rw [List.find?_eq_none]
    intro m hm heq
    obtain ⟨k, hk, hkm⟩ := List.mem_filterMap.1 hm
    have hkj : k ∈ b.jumps := by rw [hsplit]; exact List.mem_append_left _ hk
    obtain ⟨s', t', hjump', rfl⟩ := (h.jumpLink?_eq_some_iff hb hkj).1 hkm
    exact hfirst k hk (h.jumpsTo_of_ends_eq hb hc hs ht hjump' ((beq_iff_eq.1 heq).trans hends))
  have hhead : ((⟨s.node, t.node, RouteKind.ofJump j.kind⟩ : RouteLink).ends == l.ends) = true := by
    rw [hends]
    exact beq_self_eq_true _
  rw [RouteGraph.proposals, h.jumps_eq b hb, hsplit, List.filterMap_append, List.filterMap_cons, hmade,
    List.append_assoc, List.find?_append, hfront, Option.none_or, List.cons_append, List.find?_cons, hhead] at hfind
  rw [← Option.some.inj hfind]

theorem kind_of_no_jump (h : Lists blocks labels jumps) {b c : Block} (hb : b ∈ blocks) (hc : c ∈ blocks)
    {s t : LabelSite} (hs : s ∈ b.plainLabels) (ht : t ∈ c.plainLabels) (hnone : ∀ j, ¬ JumpsTo blocks b s t j)
    {l : RouteLink} (hl : l ∈ (RouteGraph.drawn labels jumps blocks).links)
    (hends : l.ends = (s.node, t.node)) : l.kind = .implicit := by
  have hfind := (h.mem_links_iff hb hs (Prod.mk.inj hends).1).1 hl
  rcases List.mem_append.1 (List.mem_of_find?_eq_some hfind) with hmem | hmem
  · obtain ⟨s', t', j, hjump, rfl⟩ := (h.mem_explicit_iff hb).1 hmem
    exact absurd (h.jumpsTo_of_ends_eq hb hc hs ht hjump hends) (hnone j)
  · obtain ⟨s', t', -, rfl⟩ := (h.mem_implicitLinks_iff hb).1 hmem
    rfl

/-- The links of a block that jumps make come before its implicit ones. -/
theorem explicit_first (h : Lists blocks labels jumps) {b : Block} (hb : b ∈ blocks) :
    (RouteGraph.drawn labels jumps blocks).links.Pairwise fun l m =>
      l.source ∈ b.plainLabels.map LabelSite.node → m.source ∈ b.plainLabels.map LabelSite.node →
        l.kind = .implicit → m.kind = .implicit := by
  have hown : ∀ c ∈ blocks, ∀ l ∈ RouteGraph.proposals labels jumps c,
      l.source ∈ b.plainLabels.map LabelSite.node → c = b := by
    intro c hc l hl hsource
    obtain ⟨s', hs', -, -, t, -, hends⟩ := h.ends_of_mem_proposals hc hl
    obtain ⟨s, hs, hnode⟩ := List.mem_map.1 hsource
    exact (h.eq_of_node_eq hc hb hs' hs ((Prod.mk.inj hends).1.symm.trans hnode.symm)).1
  rw [RouteGraph.links_drawn]
  refine List.Pairwise.sublist (eraseDupsBy_sublist _ _) (List.pairwise_flatMap.2 ⟨?_, ?_⟩)
  · intro c hc
    refine List.pairwise_append.2 ⟨?_, ?_, ?_⟩
    · refine List.pairwise_of_forall_mem_list fun l hl m _ _ _ hkind => ?_
      obtain ⟨s, t, j, -, rfl⟩ := (h.mem_explicit_iff hc).1 hl
      cases hj : j.kind <;> simp [hj, RouteKind.ofJump] at hkind
    · refine List.pairwise_of_forall_mem_list fun l _ m hm _ _ _ => ?_
      obtain ⟨s, t, -, rfl⟩ := (h.mem_implicitLinks_iff hc).1 hm
      rfl
    · intro l _ m hm _ _ _
      obtain ⟨s, t, -, rfl⟩ := (h.mem_implicitLinks_iff hc).1 hm
      rfl
  · -- Links of two blocks do not both begin in `b`.
    refine (List.pairwise_map.1 h.ids).imp_of_mem fun {c d} hc hd hne l hl m hm hsource hsource' => ?_
    rw [hown c hc l hl hsource, hown d hd m hm hsource'] at hne
    exact absurd rfl hne

theorem isRouteGraph (h : Lists blocks labels jumps) :
    IsRouteGraph blocks (RouteGraph.drawn labels jumps blocks) where
  nodes_eq := h.nodes_eq
  ends_mem _ hl := h.ends_mem hl
  ends_nodup := RouteGraph.nodup_ends labels jumps blocks
  linked_iff _ hb _ hs _ hc _ ht := h.linked_iff hb hc hs ht
  kind_of_jump _ hb _ _ _ _ _ hsplit hjump hfirst _ hl hends := h.kind_of_jump hb hsplit hjump hfirst hl hends
  kind_of_no_jump _ hb _ hs _ hc _ ht hnone _ hl hends := h.kind_of_no_jump hb hc hs ht hnone hl hends
  explicit_first _ hb := h.explicit_first hb

end Lists

/-- **The graph of routes of an analysis.** It is the graph of the blocks that are not ignored, if blocks have
different ids and no name heads two labels or named menus of these. -/
theorem isRouteGraph_of_analysis (blocks : List Block) (settings : AnalysisSettings)
    (hids : (blocks.map (·.id)).Nodup)
    (hnames : ((readBlocks settings blocks).flatMap fun b => b.facts.labels.map (·.label)).Nodup) :
    IsRouteGraph (readBlocks settings blocks) (RouteGraph.of blocks (Analysis.ofBlocks blocks settings).tables.labels
      (Analysis.ofBlocks blocks settings).references.jumps settings) := by
  have h : Lists (readBlocks settings blocks) (Analysis.ofBlocks blocks settings).tables.labels
      (Analysis.ofBlocks blocks settings).references.jumps :=
    ⟨hids.sublist (List.filter_sublist.map _), hnames, entries_labels_ofBlocks hnames,
      fun _ hb => jumps_ofBlocks hids hb⟩
  exact h.isRouteGraph

/-- A street and a shop in it, which is entered by the name of a menu, and a draft that is ignored. -/
def streetAndShop : List Block :=
  [{ id := "a", content := "label street:\n jump buy\n call street\nlabel home:\n" },
    { id := "b", content := "label shop:\n menu buy:\n  \"Leave\":\n   jump street\n" },
    { id := "c", content := "label shop:\n", path := some "debug_placeholders.rpy" }]

theorem isRouteGraph_of_analysis_street :
    ((streetAndShop.map (·.id)).Nodup ∧
      ((readBlocks .usual streetAndShop).flatMap fun b => b.facts.labels.map (·.label)).Nodup) ∧
      IsRouteGraph (readBlocks .usual streetAndShop) (RouteGraph.of streetAndShop
        (Analysis.ofBlocks streetAndShop .usual).tables.labels
        (Analysis.ofBlocks streetAndShop .usual).references.jumps .usual) := by
  have hids : (streetAndShop.map (·.id)).Nodup := by decide
  have hnames : ((readBlocks .usual streetAndShop).flatMap fun b => b.facts.labels.map (·.label)).Nodup := by
    decide +kernel
  exact ⟨⟨hids, hnames⟩, isRouteGraph_of_analysis _ _ hids hnames⟩

end Plotline
