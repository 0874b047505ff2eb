import Plotline.Proofs.Route.Graph
import Plotline.Proofs.Story.Order

/-!
# The order of the blocks of a graph of routes

* `RouteGraph.Agree`: graphs with the same nodes and the same links.
* `IsRouteGraph.agree`: the blocks determine their graph of routes, in whatever order they come.
* `analysis_of_perm`: the analysis and the graph of routes of blocks in another order.
-/

namespace Plotline
open Script

/-- The graphs have the same nodes and the same links. -/
structure RouteGraph.Agree (g g' : RouteGraph) : Prop where
  nodes : g.nodes.Perm g'.nodes
  links : g.links.Perm g'.links

/-! ## What blocks in another order say -/

section Subset
variable {bs bs' : List Block} (hsub : bs ⊆ bs')
include hsub

theorem LandsOn.mono {name : String} {t : LabelSite} : LandsOn bs name t → LandsOn bs' name t
  | .label hb ht hname => .label (hsub hb) ht hname
  | .menu hb hm hname ht => .menu (hsub hb) hm hname ht

theorem JumpsTo.mono {b : Block} {s t : LabelSite} {j : Jump} (h : JumpsTo bs b s t j) : JumpsTo bs' b s t j :=
  ⟨h.mem, h.static, h.source, h.target.mono hsub⟩

end Subset

theorem jumpsTo_of_perm {bs bs' : List Block} (hperm : bs.Perm bs') {b : Block} {s t : LabelSite} {j : Jump} :
    JumpsTo bs b s t j ↔ JumpsTo bs' b s t j := ⟨.mono hperm.subset, .mono hperm.symm.subset⟩

theorem JumpsTo.exists_first {bs : List Block} {b : Block} {s t : LabelSite} (h : ∃ j, JumpsTo bs b s t j) :
    ∃ front j back, b.jumps = front ++ j :: back ∧ JumpsTo bs b s t j ∧ ∀ k ∈ front, ¬ JumpsTo bs b s t k := by
  classical
  obtain ⟨k, hk⟩ := h
  obtain ⟨j, hj⟩ := Option.isSome_iff_exists.1
    (List.find?_isSome.2 ⟨k, hk.mem, decide_eq_true hk⟩ :
      (b.jumps.find? fun j => decide (JumpsTo bs b s t j)).isSome = true)
  obtain ⟨hjump, front, back, hsplit, hfront⟩ := List.find?_eq_some_iff_append.1 hj
  exact ⟨front, j, back, hsplit, of_decide_eq_true hjump, fun k hk => by simpa using hfront k hk⟩

/-! ## The graph -/

namespace IsRouteGraph
variable {bs bs' : List Block} {g g' : RouteGraph} (h : IsRouteGraph bs g) (h' : IsRouteGraph bs' g')
  (hperm : bs.Perm bs')
include h h' hperm

theorem mem_links {l : RouteLink} (hl : l ∈ g.links) : l ∈ g'.links := by
  obtain ⟨b, hb, s, hs, c, hc, t, ht, hends⟩ := h.ends_mem l hl
  have hb' := hperm.mem_iff.1 hb
  have hc' := hperm.mem_iff.1 hc
  obtain ⟨m, hm, hends'⟩ : ∃ m ∈ g'.links, m.ends = (s.node, t.node) := by
    rw [h'.linked_iff b hb' s hs c hc' t ht]
    simp only [← jumpsTo_of_perm hperm]
    exact (h.linked_iff b hb s hs c hc t ht).1 ⟨l, hl, hends⟩
  -- Both links have the kind of the first jump between the labels, and what stands first in a block is the same in any
  -- order of blocks.
  have hkind : l.kind = m.kind := by
    by_cases hjump : ∃ j, JumpsTo bs b s t j
    · obtain ⟨front, j, back, hsplit, hj, hfirst⟩ := JumpsTo.exists_first hjump
      rw [h.kind_of_jump b hb s t front j back hsplit hj hfirst l hl hends]
      simp only [jumpsTo_of_perm hperm] at hj hfirst
      rw [h'.kind_of_jump b hb' s t front j back hsplit hj hfirst m hm hends']
    · rw [not_exists] at hjump
      rw [h.kind_of_no_jump b hb s hs c hc t ht hjump l hl hends]
      simp only [jumpsTo_of_perm hperm] at hjump
      rw [h'.kind_of_no_jump b hb' s hs c hc' t ht hjump m hm hends']
  obtain ⟨hsource, htarget⟩ := Prod.mk.inj (hends.trans hends'.symm)
  have heq : l = m := by
    cases l
    cases m
    simp_all
  exact heq ▸ hm

theorem agree : g.Agree g' where
  nodes := by
    rw [h.nodes_eq, h'.nodes_eq]
    exact hperm.flatMap_right _
  links := (List.perm_ext_iff_of_nodup h.ends_nodup.of_map h'.ends_nodup.of_map).2 fun _ =>
    ⟨h.mem_links h' hperm, h'.mem_links h hperm.symm⟩

end IsRouteGraph

theorem lists_analysis {blocks : List Block} {settings : AnalysisSettings} (hids : (blocks.map (·.id)).Nodup)
    (honce : DefinesOnce (readBlocks settings blocks)) :
    Lists (readBlocks settings blocks) (Analysis.ofBlocks blocks settings).tables.labels
      (Analysis.ofBlocks blocks settings).references.jumps :=
  ⟨nodup_readBlocks settings hids, honce.labels, entries_labels_ofBlocks honce.labels,
    fun _ hb => jumps_ofBlocks hids hb⟩

/-- **The order of blocks.** Blocks with different ids, of which none that is not ignored defines a name again, have the
same analysis and the same graph of routes in any order, but for the order in which these list things. -/
theorem analysis_of_perm (settings : AnalysisSettings) {blocks blocks' : List Block} (hperm : blocks.Perm blocks')
    (hids : (blocks.map (·.id)).Nodup) (honce : DefinesOnce (readBlocks settings blocks)) :
    Analysis.refuses blocks settings = Analysis.refuses blocks' settings ∧
      (Analysis.ofBlocks blocks settings).Agree (Analysis.ofBlocks blocks' settings) ∧
      (RouteGraph.of blocks (Analysis.ofBlocks blocks settings).tables.labels
          (Analysis.ofBlocks blocks settings).references.jumps settings).Agree
        (RouteGraph.of blocks' (Analysis.ofBlocks blocks' settings).tables.labels
          (Analysis.ofBlocks blocks' settings).references.jumps settings) := by
  have hread := readBlocks_perm hperm settings
  have hgraph := (lists_analysis hids honce).isRouteGraph
  have hgraph' := (lists_analysis (nodup_ids_of_perm hperm hids) (honce.of_perm hread)).isRouteGraph
  refine ⟨?_, Analysis.agree_of_perm hperm hids honce, hgraph.agree hgraph' hread⟩
  unfold Analysis.refuses
  rw [hperm.any_eq]

/-- A house whose door leads to a garden, which is in the next block. -/
def house : Block := { id := "a", content := "define e = Character(\"E\")\nlabel home:\n e \"Out.\"\n jump yard\n" }

/-- The garden, from which the story goes back. -/
def garden : Block := { id := "b", content := "default n = 0\nlabel yard:\n call home\n" }

theorem analysis_of_perm_house :
    ([house, garden].Perm [garden, house] ∧ ([house, garden].map (·.id)).Nodup ∧
      DefinesOnce (readBlocks .usual [house, garden])) ∧
      Analysis.refuses [house, garden] .usual = Analysis.refuses [garden, house] .usual ∧
      (Analysis.ofBlocks [house, garden] .usual).Agree (Analysis.ofBlocks [garden, house] .usual) ∧
      (RouteGraph.of [house, garden] (Analysis.ofBlocks [house, garden] .usual).tables.labels
          (Analysis.ofBlocks [house, garden] .usual).references.jumps .usual).Agree
        (RouteGraph.of [garden, house] (Analysis.ofBlocks [garden, house] .usual).tables.labels
          (Analysis.ofBlocks [garden, house] .usual).references.jumps .usual) := by
  have hperm : [house, garden].Perm [garden, house] := .swap garden house []
  have hids : ([house, garden].map (·.id)).Nodup := by decide
  have honce : DefinesOnce (readBlocks .usual [house, garden]) :=
    ⟨by decide +kernel, by decide +kernel, by decide +kernel, by decide +kernel⟩
  exact ⟨⟨hperm, hids, honce⟩, analysis_of_perm .usual hperm hids honce⟩

end Plotline
