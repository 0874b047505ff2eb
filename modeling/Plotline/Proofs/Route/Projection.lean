import Plotline.Proofs.Route.Graph
import Plotline.Proofs.Story.References

/-!
# The graph of routes and the links between blocks

Names may be used more than once here, so that only the labels that the table keeps are nodes.

* `ReadFrom.explicit_of_mem_links`, `ReadFrom.implicit_of_mem_links`: where a link comes from.
* `explicit_link_source`: a link that jumps make begins at the last kept label above one of them, which is the label
  that the jump stands under if and only if the table keeps that one.
* `jump_under_overwritten_label`: otherwise the link begins at some label further up.
* `Projects`, `projects_analysis`: the links between blocks are the projection of the graph of routes.
-/

namespace Plotline
open Script

namespace ReadFrom
variable {blocks : List Block} {labels : Table String LabelSite} {jumps : Table String (List Jump)}

/-! ## Nodes and links -/

theorem mem_nodes_iff (h : ReadFrom blocks labels jumps) {n : RouteNode} :
    n ∈ (RouteGraph.drawn labels jumps blocks).nodes ↔
      ∃ b ∈ blocks, ∃ s ∈ b.kept labels, n = ⟨s.node, b.id, s.label, s.line, b.caption⟩ := by
  rw [h.nodes_eq, List.mem_flatMap]
  refine exists_congr fun b => and_congr_right fun _ => ?_
  rw [List.mem_map]
  exact exists_congr fun s => and_congr_right fun _ => eq_comm

theorem block_of_node_eq (h : ReadFrom blocks labels jumps) {b : Block} (hb : b ∈ blocks) {s : LabelSite}
    (hs : s ∈ b.kept labels) {n : RouteNode}
    (hn : n ∈ (RouteGraph.drawn labels jumps blocks).nodes) (hid : n.id = s.node) : n.block = b.id := by
  obtain ⟨c, hc, t, ht, rfl⟩ := h.mem_nodes_iff.1 hn
  rw [(h.eq_of_node_eq hc hb ht hs hid).1]

theorem explicit_of_mem_links (h : ReadFrom blocks labels jumps) {l : RouteLink}
    (hl : l ∈ (RouteGraph.drawn labels jumps blocks).links) (hkind : l.kind ≠ .implicit) :
    ∃ b ∈ blocks, ∃ s t j, Makes blocks labels b s t j ∧ l = ⟨s.node, t.node, RouteKind.ofJump j.kind⟩ := by
  obtain ⟨b, hb, hmem⟩ := RouteGraph.exists_proposal_of_mem_links hl
  rcases List.mem_append.1 hmem with hmem | hmem
  · exact ⟨b, hb, (h.mem_explicit_iff hb).1 hmem⟩
  · obtain ⟨s, t, -, -, rfl⟩ := (h.mem_implicitLinks_iff hb).1 hmem
    exact absurd rfl hkind

theorem implicit_of_mem_links (h : ReadFrom blocks labels jumps) {l : RouteLink}
    (hl : l ∈ (RouteGraph.drawn labels jumps blocks).links) (hkind : l.kind = .implicit) :
    ∃ b ∈ blocks, ∃ s t, [s, t] <:+: b.kept labels ∧ l.ends = (s.node, t.node) := by
  obtain ⟨b, hb, hmem⟩ := RouteGraph.exists_proposal_of_mem_links hl
  rcases List.mem_append.1 hmem with hmem | hmem
  · obtain ⟨s, t, j, -, rfl⟩ := (h.mem_explicit_iff hb).1 hmem
    cases hj : j.kind <;> simp [hj, RouteKind.ofJump] at hkind
  · obtain ⟨s, t, hnext, -, rfl⟩ := (h.mem_implicitLinks_iff hb).1 hmem
    exact ⟨b, hb, s, t, hnext, rfl⟩

theorem exists_link_of_makes (h : ReadFrom blocks labels jumps) {b : Block} (hb : b ∈ blocks) {s t : LabelSite}
    {j : Jump} (hmakes : Makes blocks labels b s t j) :
    ∃ l ∈ (RouteGraph.drawn labels jumps blocks).links, l.ends = (s.node, t.node) :=
  RouteGraph.exists_link_of_mem_proposals hb
    (List.mem_append_left _ ((h.mem_explicit_iff hb).2 ⟨s, t, j, hmakes, rfl⟩))

theorem links_eq (h : ReadFrom blocks labels jumps) : (RouteGraph.drawn labels jumps blocks).links =
    (blocks.flatMap fun b => b.jumps.filterMap (RouteGraph.jumpLink? labels ((b.kept labels).map LabelSite.span)) ++
      RouteGraph.implicitLinks b ((b.kept labels).map LabelSite.span)).eraseDupsBy fun l m => l.ends == m.ends := by
  rw [RouteGraph.links_drawn]
  congr 1
  refine List.flatMap_congr fun b hb => ?_
  rw [RouteGraph.proposals, h.jumps_eq b hb, h.spansOf_eq hb]

/-- A name of the table leads to a kept label, unless it names a menu that no kept label stands above. -/
theorem leadsTo_or (h : ReadFrom blocks labels jumps) {name : String} {site : LabelSite}
    (hsite : labels.get? name = some site) {c : Block} (hc : c ∈ blocks) (hblock : site.block = c.id) :
    (∃ t ∈ c.kept labels, LeadsTo blocks labels name t) ∨
      site ∈ c.namedMenus ∧ ∀ t ∈ c.kept labels, site.line < t.line := by
  have hmem := h.mem_labels_of_block_eq hc hsite hblock
  have hname := (h.site_of_get? name site hsite).1
  cases hkind : site.kind with
  | label =>
      have hkept : site ∈ c.kept labels := (h.mem_kept_iff hc).2 ⟨hname ▸ hsite, hkind, hblock⟩
      exact Or.inl ⟨site, hkept, .label hc hkept hname⟩
  | menu =>
      have hmenu : site ∈ c.namedMenus := Block.mem_namedMenus.2 ⟨hmem, hkind⟩
      rcases c.exists_keptAbove_or labels site.line with ⟨t, ht⟩ | hbelow
      · exact Or.inl ⟨t, ht.mem, .menu hc hmenu hsite ht⟩
      · exact Or.inr ⟨hmenu, hbelow⟩

end ReadFrom

/-! ## Where links of jumps begin -/

section Analysis
variable (blocks : List Block) (settings : AnalysisSettings)

/-- **Where the links of jumps begin.** A jump makes the link, and stands below its first label: this is the last label
above the jump that the table keeps. It is the last label above such a jump at all if and only if the table keeps the
label that such a jump stands under. -/
theorem explicit_link_source (hids : (blocks.map (·.id)).Nodup) {l : RouteLink}
    (hl : l ∈ (RouteGraph.of blocks (Analysis.ofBlocks blocks settings).tables.labels
      (Analysis.ofBlocks blocks settings).references.jumps settings).links) (hkind : l.kind ≠ .implicit) :
    (∃ b ∈ readBlocks settings blocks, ∃ s t j,
      Makes (readBlocks settings blocks) (Analysis.ofBlocks blocks settings).tables.labels b s t j ∧
        l = ⟨s.node, t.node, RouteKind.ofJump j.kind⟩) ∧
    ((∃ b ∈ readBlocks settings blocks, ∃ s t j,
        Makes (readBlocks settings blocks) (Analysis.ofBlocks blocks settings).tables.labels b s t j ∧
          l.ends = (s.node, t.node) ∧ b.Encloses j.line s) ↔
      ∃ b ∈ readBlocks settings blocks, ∃ s t j,
        Makes (readBlocks settings blocks) (Analysis.ofBlocks blocks settings).tables.labels b s t j ∧
          l.ends = (s.node, t.node) ∧ ∃ h, b.Encloses j.line h ∧
            (Analysis.ofBlocks blocks settings).tables.labels.get? h.label = some h) := by
  refine ⟨(readFrom_analysis blocks settings hids).explicit_of_mem_links hl hkind, ?_⟩
  refine exists_congr fun b => and_congr_right fun _ => exists_congr fun s => exists_congr fun t =>
    exists_congr fun j => and_congr_right fun hmakes => and_congr_right fun _ => ?_
  constructor
  · intro hs
    exact ⟨s, hs, (hmakes.source.eq_iff hs).1 rfl⟩
  · rintro ⟨h, hh, hkept⟩
    exact (hmakes.source.eq_iff hh).2 hkept ▸ hh

end Analysis

/-- Two shops of one name, the first with a way home. -/
def twoShops : List Block :=
  [{ id := "one", content := "label start:\n return\nlabel shop:\n jump home\nlabel home:\n" },
    { id := "two", content := "label shop:\n" }]

theorem mem_links_twoShops : (⟨"one:start", "one:home", .jump⟩ : RouteLink) ∈
    (RouteGraph.of twoShops (Analysis.ofBlocks twoShops .usual).tables.labels
      (Analysis.ofBlocks twoShops .usual).references.jumps .usual).links := by
  have h := readFrom_analysis twoShops .usual (by decide)
  have hlinks : _ = [(⟨"one:start", "one:home", .jump⟩ : RouteLink)] := h.links_eq.trans (by decide +kernel)
  exact hlinks ▸ List.mem_singleton_self _

theorem explicit_link_source_twoShops :
    ((twoShops.map (·.id)).Nodup ∧ (⟨"one:start", "one:home", .jump⟩ : RouteLink) ∈
      (RouteGraph.of twoShops (Analysis.ofBlocks twoShops .usual).tables.labels
        (Analysis.ofBlocks twoShops .usual).references.jumps .usual).links ∧ RouteKind.jump ≠ .implicit) ∧
    ∃ b ∈ readBlocks .usual twoShops, ∃ s t j,
      Makes (readBlocks .usual twoShops) (Analysis.ofBlocks twoShops .usual).tables.labels b s t j ∧
        (⟨"one:start", "one:home", .jump⟩ : RouteLink) = ⟨s.node, t.node, RouteKind.ofJump j.kind⟩ := by
  have hids : (twoShops.map (·.id)).Nodup := by decide
  exact ⟨⟨hids, mem_links_twoShops, by decide⟩,
    (explicit_link_source twoShops .usual hids mem_links_twoShops (by decide)).1⟩

/-- The way home from the first shop is drawn from the label above it, though none of its jumps stands under that. -/
theorem jump_under_overwritten_label : ¬ ∀ (blocks : List Block) (settings : AnalysisSettings),
    (blocks.map (·.id)).Nodup →
      ∀ l ∈ (RouteGraph.of blocks (Analysis.ofBlocks blocks settings).tables.labels
        (Analysis.ofBlocks blocks settings).references.jumps settings).links, l.kind ≠ .implicit →
          ∃ b ∈ readBlocks settings blocks, ∃ j ∈ b.jumps, ∃ h, b.Encloses j.line h ∧ l.source = h.node := by
  intro hall
  obtain ⟨b, hb, j, hj, h, ⟨hplain, habove, hlast⟩, hsource⟩ :=
    hall twoShops .usual (by decide) _ mem_links_twoShops (by decide)
  have hother : ∀ b ∈ readBlocks .usual twoShops, ∀ j ∈ b.jumps, ∀ h ∈ b.plainLabels,
      (h.line ≤ j.line ∧ ∀ t ∈ b.plainLabels, t.line ≤ j.line → t.line ≤ h.line) → "one:start" ≠ h.node := by
    decide +kernel
  exact hother b hb j hj h hplain ⟨habove, hlast⟩ hsource

/-! ## The projection on blocks -/

/-- The links between blocks are the projection of a graph of routes. -/
structure Projects (blocks : List Block) (labels : Table String LabelSite) (g : RouteGraph) (links : List Link) :
    Prop where
  ends_listed : ∀ l ∈ g.links, (∃ m ∈ g.nodes, m.id = l.source) ∧ ∃ n ∈ g.nodes, n.id = l.target
  implicit_inside : ∀ l ∈ g.links, l.kind = .implicit → ∀ m ∈ g.nodes, ∀ n ∈ g.nodes, m.id = l.source →
    n.id = l.target → m.block = n.block
  explicit_linked : ∀ l ∈ g.links, l.kind ≠ .implicit → ∀ m ∈ g.nodes, ∀ n ∈ g.nodes, m.id = l.source →
    n.id = l.target → m.block ≠ n.block → ∃ k ∈ links, k.source = m.block ∧ k.target = n.block
  /-- Without a link between their labels, every jump from one block to the other stands above the labels that the
  table keeps, or names a menu that stands above them. -/
  unlinked : ∀ k ∈ links, (¬ ∃ l ∈ g.links, ∃ m ∈ g.nodes, ∃ n ∈ g.nodes, m.id = l.source ∧ n.id = l.target ∧
      m.block = k.source ∧ n.block = k.target) →
    ∃ b ∈ blocks, b.id = k.source ∧ ∃ c ∈ blocks, c.id = k.target ∧ ∀ j, Enters labels b c.id j →
      (∀ s ∈ b.kept labels, j.line < s.line) ∨
        ∃ m ∈ c.namedMenus, labels.get? j.target = some m ∧ ∀ t ∈ c.kept labels, m.line < t.line

namespace ReadFrom
variable {blocks : List Block} {labels : Table String LabelSite} {jumps : Table String (List Jump)}

theorem exists_node (h : ReadFrom blocks labels jumps) {b : Block} (hb : b ∈ blocks) {s : LabelSite}
    (hs : s ∈ b.kept labels) :
    ∃ n ∈ (RouteGraph.drawn labels jumps blocks).nodes, n.id = s.node ∧ n.block = b.id :=
  ⟨_, h.mem_nodes_iff.2 ⟨b, hb, s, hs, rfl⟩, rfl, rfl⟩

theorem ends_listed (h : ReadFrom blocks labels jumps) {l : RouteLink}
    (hl : l ∈ (RouteGraph.drawn labels jumps blocks).links) :
    (∃ m ∈ (RouteGraph.drawn labels jumps blocks).nodes, m.id = l.source) ∧
      ∃ n ∈ (RouteGraph.drawn labels jumps blocks).nodes, n.id = l.target := by
  obtain ⟨b, hb, hmem⟩ := RouteGraph.exists_proposal_of_mem_links hl
  obtain ⟨s, hs, c, hc, t, ht, hends⟩ := h.ends_of_mem_proposals hb hmem
  obtain ⟨hsource, htarget⟩ := Prod.mk.inj hends
  obtain ⟨m, hm, hmid, -⟩ := h.exists_node hb hs
  obtain ⟨n, hn, hnid, -⟩ := h.exists_node hc ht
  exact ⟨⟨m, hm, hmid.trans hsource.symm⟩, n, hn, hnid.trans htarget.symm⟩

theorem implicit_inside (h : ReadFrom blocks labels jumps) {l : RouteLink}
    (hl : l ∈ (RouteGraph.drawn labels jumps blocks).links) (hkind : l.kind = .implicit)
    {m n : RouteNode} (hm : m ∈ (RouteGraph.drawn labels jumps blocks).nodes)
    (hn : n ∈ (RouteGraph.drawn labels jumps blocks).nodes) (hsource : m.id = l.source)
    (htarget : n.id = l.target) : m.block = n.block := by
  obtain ⟨b, hb, s, t, hnext, hends⟩ := h.implicit_of_mem_links hl hkind
  obtain ⟨hs, ht⟩ := Prod.mk.inj hends
  rw [h.block_of_node_eq hb (hnext.subset (by simp)) hm (hsource.trans hs),
    h.block_of_node_eq hb (hnext.subset (by simp)) hn (htarget.trans ht)]

theorem enters_of_makes (h : ReadFrom blocks labels jumps) {b c : Block} (hc : c ∈ blocks) {s t : LabelSite} {j : Jump}
    (hmakes : Makes blocks labels b s t j) (ht : t ∈ c.kept labels) (hne : c.id ≠ b.id) : Enters labels b c.id j := by
  refine ⟨hmakes.mem, hmakes.static, ?_, hne⟩
  cases hmakes.target with
  | @label d hd htd hname =>
      obtain ⟨hget, -, hblock⟩ := (h.mem_kept_iff hc).1 ht
      exact ⟨t, hname ▸ hget, hblock⟩
  | @menu d m hd hm hget htd =>
      obtain rfl : d = c := (h.eq_of_node_eq hd hc htd.mem ht rfl).1
      exact ⟨m, hget, Block.block_of_mem_labels (Block.mem_namedMenus.1 hm).1⟩

/-- A jump into another block makes a link, unless it stands above the kept labels of its own block or names a menu
above those of the other. -/
theorem makes_or_of_enters (h : ReadFrom blocks labels jumps) {b c : Block} (hc : c ∈ blocks) {j : Jump}
    (henters : Enters labels b c.id j) : (∃ s t, Makes blocks labels b s t j ∧ t ∈ c.kept labels) ∨
      (∀ s ∈ b.kept labels, j.line < s.line) ∨
        ∃ m ∈ c.namedMenus, labels.get? j.target = some m ∧ ∀ t ∈ c.kept labels, m.line < t.line := by
  obtain ⟨site, hsite, hblock⟩ := henters.resolved
  rcases b.exists_keptAbove_or labels j.line with ⟨s, hs⟩ | hbelow
  · rcases h.leadsTo_or hsite hc hblock with ⟨t, ht, hleads⟩ | ⟨hmenu, hbelow⟩
    · exact Or.inl ⟨s, t, ⟨henters.mem, henters.static, hs, hleads⟩, ht⟩
    · exact Or.inr (Or.inr ⟨site, hmenu, hsite, hbelow⟩)
  · exact Or.inr (Or.inl hbelow)

end ReadFrom

/-- **The links between blocks are the projection of the graph of routes**, if blocks have different ids. -/
theorem projects_analysis (blocks : List Block) (settings : AnalysisSettings) (hids : (blocks.map (·.id)).Nodup) :
    Projects (readBlocks settings blocks) (Analysis.ofBlocks blocks settings).tables.labels
      (RouteGraph.of blocks (Analysis.ofBlocks blocks settings).tables.labels
        (Analysis.ofBlocks blocks settings).references.jumps settings)
      (Analysis.ofBlocks blocks settings).references.links := by
  have h := readFrom_analysis blocks settings hids
  refine ⟨fun l hl => h.ends_listed hl, fun l hl hkind m hm n hn => h.implicit_inside hl hkind hm hn, ?_, ?_⟩
  · intro l hl hkind m hm n hn hsource htarget hne
    obtain ⟨b, hb, s, t, j, hmakes, rfl⟩ := h.explicit_of_mem_links hl hkind
    obtain ⟨c, hc, ht⟩ := hmakes.target.exists_mem
    have hmb : m.block = b.id := h.block_of_node_eq hb hmakes.source.mem hm hsource
    have hnc : n.block = c.id := h.block_of_node_eq hc ht hn htarget
    rw [hmb, hnc] at hne ⊢
    exact (exists_link_iff hids).2 ⟨b, hb, rfl, j, h.enters_of_makes hc hmakes ht hne.symm⟩
  · intro k hk hnone
    obtain ⟨b, hb, hsource, j₀, henters₀⟩ := (exists_link_iff hids).1 ⟨k, hk, rfl, rfl⟩
    obtain ⟨site, hsite, hblock⟩ := henters₀.resolved
    obtain ⟨-, c, hc, hmem⟩ := h.site_of_get? _ _ hsite
    have htarget : c.id = k.target := (Block.block_of_mem_labels hmem).symm.trans hblock
    refine ⟨b, hb, hsource, c, hc, htarget, fun j henters => (h.makes_or_of_enters hc henters).resolve_left ?_⟩
    rintro ⟨s, t, hmakes, ht⟩
    obtain ⟨l, hl, hends⟩ := h.exists_link_of_makes hb hmakes
    obtain ⟨m, hm, hmid, hmblock⟩ := h.exists_node hb hmakes.source.mem
    obtain ⟨n, hn, hnid, hnblock⟩ := h.exists_node hc ht
    obtain ⟨hs, ht⟩ := Prod.mk.inj hends
    exact hnone ⟨l, hl, m, hm, n, hn, hmid.trans hs.symm, hnid.trans ht.symm, hmblock.trans hsource,
      hnblock.trans htarget⟩

/-- A block that leads into a menu without a label above it and into an overwritten label. -/
def crossing : List Block :=
  [{ id := "a:b", content := "jump c\nlabel a:\n jump m\nlabel c:\n call c\n" },
    { id := "->", content := "menu m:\n \"Go\":\n  jump a\nlabel c:\n call screen a\n" }]

theorem projects_analysis_crossing :
    (crossing.map (·.id)).Nodup ∧ Projects (readBlocks .usual crossing)
      (Analysis.ofBlocks crossing .usual).tables.labels
      (RouteGraph.of crossing (Analysis.ofBlocks crossing .usual).tables.labels
        (Analysis.ofBlocks crossing .usual).references.jumps .usual)
      (Analysis.ofBlocks crossing .usual).references.links := by
  have hids : (crossing.map (·.id)).Nodup := by decide
  exact ⟨hids, projects_analysis crossing .usual hids⟩

end Plotline
