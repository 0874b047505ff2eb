import Plotline.Proofs.Route.Spans
import Plotline.Proofs.Story.Labels

/-!
# Labels that a table keeps

A table has one site for each name, so that a plain label whose name is used again may be missing from it.

* `Block.kept`: the plain labels of a block that a table keeps.
* `ReadFrom`: tables of labels and jumps that come from blocks.
* `ReadFrom.spansOf_eq`: the spans of a block begin at the plain labels that are kept.
* `Block.KeptAbove`, `LeadsTo`, `Makes`: the last kept label above a line, the kept label that a name leads to, and the
  jumps from one kept label to another.
* `ReadFrom.jumpLink?_eq_some_iff`, `ReadFrom.mem_implicitLinks_iff`: the links that jumps make, and those that the
  order of kept labels makes.
-/

namespace Plotline
open Script

/-- The plain labels of a block that a table keeps, from top to bottom. -/
def Block.kept (b : Block) (labels : Table String LabelSite) : List LabelSite :=
  b.plainLabels.filter fun s => labels.get? s.label = some s

/-- Tables of labels and jumps that come from blocks; names may be used more than once. -/
structure ReadFrom (blocks : List Block) (labels : Table String LabelSite) (jumps : Table String (List Jump)) :
    Prop where
  ids : (blocks.map (·.id)).Nodup
  site_of_get? : ∀ name s, labels.get? name = some s → s.label = name ∧ ∃ b ∈ blocks, s ∈ b.facts.labels
  jumps_eq : ∀ b ∈ blocks, jumps.getD b.id [] = b.jumps

theorem readFrom_analysis (blocks : List Block) (settings : AnalysisSettings) (hids : (blocks.map (·.id)).Nodup) :
    ReadFrom (readBlocks settings blocks) (Analysis.ofBlocks blocks settings).tables.labels
      (Analysis.ofBlocks blocks settings).references.jumps :=
  ⟨nodup_readBlocks settings hids, fun _ _ => mem_of_get?_labels, fun _ hb => jumps_ofBlocks hids hb⟩

/-! ## Kept labels -/

section Kept
variable {b : Block} {labels : Table String LabelSite}

theorem Block.mem_kept {s : LabelSite} : s ∈ b.kept labels ↔ s ∈ b.plainLabels ∧ labels.get? s.label = some s := by
  rw [kept, List.mem_filter, decide_eq_true_eq]

theorem Block.pairwise_kept : (b.kept labels).Pairwise fun s t => s.line < t.line :=
  b.pairwise_plainLabels.sublist List.filter_sublist

/-- The last plain label of a block that a table keeps at or above a line. -/
structure Block.KeptAbove (b : Block) (labels : Table String LabelSite) (line : Int) (s : LabelSite) : Prop where
  mem : s ∈ b.kept labels
  above : s.line ≤ line
  last : ∀ t ∈ b.kept labels, t.line ≤ line → t.line ≤ s.line

theorem Block.keptAbove_iff_encloses (hkept : b.kept labels = b.plainLabels) {line : Int} {s : LabelSite} :
    b.KeptAbove labels line s ↔ b.Encloses line s := by
  constructor
  · rintro ⟨hmem, habove, hlast⟩
    rw [hkept] at hmem hlast
    exact ⟨hmem, habove, hlast⟩
  · rintro ⟨hmem, habove, hlast⟩
    rw [← hkept] at hmem hlast
    exact ⟨hmem, habove, hlast⟩

/-- The last plain label above a line is the last one that is kept if and only if it is kept. -/
theorem Block.KeptAbove.eq_iff {line : Int} {s h : LabelSite} (hs : b.KeptAbove labels line s)
    (hh : b.Encloses line h) : h = s ↔ labels.get? h.label = some h := by
  constructor
  · rintro rfl
    exact (mem_kept.1 hs.mem).2
  · intro hkept
    have hle : h.line ≤ s.line := hs.last h (mem_kept.2 ⟨hh.mem, hkept⟩) hh.above
    have hge : s.line ≤ h.line := hh.last s (mem_kept.1 hs.mem).1 hs.above
    have hlines : (b.plainLabels.map (·.line)).Nodup :=
      List.pairwise_map.2 (b.pairwise_plainLabels.imp fun hlt => Int.ne_of_lt hlt)
    exact List.inj_on_of_nodup_map hlines hh.mem (mem_kept.1 hs.mem).1 (by omega)

theorem Block.enclosing?_kept_eq_some_iff {line : Int} {span : Span} :
    enclosing? ((b.kept labels).map LabelSite.span) line = some span ↔
      ∃ s, b.KeptAbove labels line s ∧ s.span = span := by
  rw [enclosing?_map_span pairwise_kept]
  constructor
  · rintro ⟨s, ⟨hmem, habove, hlast⟩, hspan⟩
    exact ⟨s, ⟨hmem, habove, hlast⟩, hspan⟩
  · rintro ⟨s, ⟨hmem, habove, hlast⟩, hspan⟩
    exact ⟨s, ⟨hmem, habove, hlast⟩, hspan⟩

/-- No kept label is the last above a line only if all of them are below it. -/
theorem Block.exists_keptAbove_or (b : Block) (labels : Table String LabelSite) (line : Int) :
    (∃ s, b.KeptAbove labels line s) ∨ ∀ s ∈ b.kept labels, line < s.line := by
  cases hspan : enclosing? ((b.kept labels).map LabelSite.span) line with
  | none => exact Or.inr ((enclosing?_map_span_eq_none pairwise_kept).1 hspan)
  | some span =>
      obtain ⟨s, hs, -⟩ := enclosing?_kept_eq_some_iff.1 hspan
      exact Or.inl ⟨s, hs⟩

end Kept

/-! ## Where names and jumps lead -/

/-- The kept plain label that a name leads to. A named menu is a part of the kept plain label around it. -/
inductive LeadsTo (blocks : List Block) (labels : Table String LabelSite) (name : String) (t : LabelSite) : Prop
  | label {c : Block} : c ∈ blocks → t ∈ c.kept labels → t.label = name → LeadsTo blocks labels name t
  | menu {c : Block} {m : LabelSite} : c ∈ blocks → m ∈ c.namedMenus → labels.get? name = some m →
      c.KeptAbove labels m.line t → LeadsTo blocks labels name t

theorem LeadsTo.exists_mem {blocks : List Block} {labels : Table String LabelSite} {name : String} {t : LabelSite} :
    LeadsTo blocks labels name t → ∃ c ∈ blocks, t ∈ c.kept labels
  | .label hc ht _ => ⟨_, hc, ht⟩
  | .menu hc _ _ ht => ⟨_, hc, ht.mem⟩

/-- A jump or call of a block, not computed, from the text of one kept plain label to another. -/
structure Makes (blocks : List Block) (labels : Table String LabelSite) (b : Block) (s t : LabelSite) (j : Jump) :
    Prop where
  mem : j ∈ b.jumps
  static : j.dynamic = false
  source : b.KeptAbove labels j.line s
  target : LeadsTo blocks labels j.target t

namespace ReadFrom
variable {blocks : List Block} {labels : Table String LabelSite} {jumps : Table String (List Jump)}

theorem nodup_values (h : ReadFrom blocks labels jumps) : labels.values.Nodup := by
  have hkeys : labels.values.map LabelSite.label = labels.keys :=
    Table.map_key_values fun name s hs => (h.site_of_get? name s hs).1
  have hnodup : labels.keys.Nodup := labels.nodup
  rw [← hkeys] at hnodup
  exact hnodup.of_map

theorem mem_values (h : ReadFrom blocks labels jumps) {s : LabelSite} :
    s ∈ labels.values ↔ labels.get? s.label = some s :=
  Table.mem_values_iff fun name s hs => (h.site_of_get? name s hs).1

theorem mem_labels_of_block_eq (h : ReadFrom blocks labels jumps) {b : Block} (hb : b ∈ blocks) {name : String}
    {s : LabelSite} (hs : labels.get? name = some s) (hblock : s.block = b.id) : s ∈ b.facts.labels := by
  obtain ⟨-, c, hc, hmem⟩ := h.site_of_get? name s hs
  rw [Block.block_of_mem_labels hmem] at hblock
  rwa [List.inj_on_of_nodup_map h.ids hc hb hblock] at hmem

theorem mem_kept_iff (h : ReadFrom blocks labels jumps) {b : Block} (hb : b ∈ blocks) {s : LabelSite} :
    s ∈ b.kept labels ↔ labels.get? s.label = some s ∧ s.kind = .label ∧ s.block = b.id := by
  rw [Block.mem_kept, Block.mem_plainLabels]
  constructor
  · rintro ⟨⟨hmem, hkind⟩, hget⟩
    exact ⟨hget, hkind, Block.block_of_mem_labels hmem⟩
  · rintro ⟨hget, hkind, hblock⟩
    exact ⟨⟨h.mem_labels_of_block_eq hb hget hblock, hkind⟩, hget⟩

/-- The spans of a block begin at the plain labels that the table keeps. -/
theorem spansOf_eq (h : ReadFrom blocks labels jumps) {b : Block} (hb : b ∈ blocks) :
    spansOf labels b.id = (b.kept labels).map LabelSite.span := by
  have hkept : (b.kept labels).Pairwise fun s t => s.line < t.line := Block.pairwise_kept
  have hsites : (labels.values.filter fun s => s.kind = .label && s.block = b.id).Perm (b.kept labels) := by
    refine (List.perm_ext_iff_of_nodup (h.nodup_values.filter _) ?_).2 fun s => ?_
    · refine List.Pairwise.imp ?_ hkept
      rintro s t hlt rfl
      exact Int.lt_irrefl _ hlt
    · rw [h.mem_kept_iff hb, List.mem_filter, h.mem_values, Bool.and_eq_true, decide_eq_true_eq, decide_eq_true_eq]
  have hperm : (spansOf labels b.id).Perm ((b.kept labels).map LabelSite.span) :=
    (List.mergeSort_perm _ _).trans (hsites.map LabelSite.span)
  have hlines : (((b.kept labels).map LabelSite.span).map (·.line)).Nodup := by
    rw [List.map_map]
    exact List.pairwise_map.2 (hkept.imp fun hlt => Int.ne_of_lt hlt)
  have hsorted : (spansOf labels b.id).Pairwise fun s t => s.line ≤ t.line := by
    have htrans : ∀ s t u : Span, decide (s.line ≤ t.line) = true → decide (t.line ≤ u.line) = true →
        decide (s.line ≤ u.line) = true := fun s t u => by simpa using Int.le_trans
    have htotal : ∀ s t : Span, (decide (s.line ≤ t.line) || decide (t.line ≤ s.line)) = true := fun s t => by
      simpa using Int.le_total s.line t.line
    exact (List.pairwise_mergeSort htrans htotal _).imp fun hle => of_decide_eq_true hle
  have hkeptSorted : ((b.kept labels).map LabelSite.span).Pairwise fun s t => s.line ≤ t.line :=
    List.pairwise_map.2 (hkept.imp Int.le_of_lt)
  refine hperm.eq_of_pairwise (fun s t hs ht hst hts => ?_) hsorted hkeptSorted
  exact List.inj_on_of_nodup_map hlines (hperm.mem_iff.1 hs) ht (Int.le_antisymm hst hts)

theorem targetNode?_eq_some_iff (h : ReadFrom blocks labels jumps) {name node : String} :
    targetNode? labels name = some node ↔ ∃ t, LeadsTo blocks labels name t ∧ t.node = node := by
  unfold targetNode?
  rw [Option.bind_eq_some_iff]
  constructor
  · rintro ⟨s, hs, hnode⟩
    obtain ⟨rfl, c, hc, hmem⟩ := h.site_of_get? name s hs
    cases hkind : s.kind with
    | label =>
        rw [hkind] at hnode
        refine ⟨s, .label hc (Block.mem_kept.2 ⟨Block.mem_plainLabels.2 ⟨hmem, hkind⟩, hs⟩) rfl, ?_⟩
        exact Option.some.inj hnode
    | menu =>
        rw [hkind] at hnode
        simp only [Block.block_of_mem_labels hmem, h.spansOf_eq hc, Option.map_eq_some_iff] at hnode
        obtain ⟨span, hspan, rfl⟩ := hnode
        obtain ⟨t, ht, rfl⟩ := Block.enclosing?_kept_eq_some_iff.1 hspan
        exact ⟨t, .menu hc (Block.mem_namedMenus.2 ⟨hmem, hkind⟩) hs ht, rfl⟩
  · rintro ⟨t, hleads, rfl⟩
    cases hleads with
    | label hc ht hname =>
        obtain ⟨hget, hkind, -⟩ := (h.mem_kept_iff hc).1 ht
        refine ⟨t, hname ▸ hget, ?_⟩
        rw [hkind, ← hname]
        rfl
    | @menu c m hc hm hget ht =>
        obtain ⟨hmem, hkind⟩ := Block.mem_namedMenus.1 hm
        refine ⟨m, hget, ?_⟩
        rw [hkind]
        simp only [Block.block_of_mem_labels hmem, h.spansOf_eq hc, Option.map_eq_some_iff]
        exact ⟨t.span, Block.enclosing?_kept_eq_some_iff.2 ⟨t, ht, rfl⟩, rfl⟩

/-- A jump of a block makes the link from the kept label whose text it stands in to the one that it leads to. -/
theorem jumpLink?_eq_some_iff (h : ReadFrom blocks labels jumps) {b : Block} (hb : b ∈ blocks) {j : Jump}
    (hj : j ∈ b.jumps) {l : RouteLink} : RouteGraph.jumpLink? labels (spansOf labels b.id) j = some l ↔
      ∃ s t, Makes blocks labels b s t j ∧ l = ⟨s.node, t.node, RouteKind.ofJump j.kind⟩ := by
  rw [h.spansOf_eq hb]
  unfold RouteGraph.jumpLink?
  constructor
  · intro hl
    split at hl
    · cases hl
    · rename_i hstatic
      split at hl
      · rename_i span node hspan hnode
        obtain rfl := Option.some.inj hl
        obtain ⟨s, hs, rfl⟩ := Block.enclosing?_kept_eq_some_iff.1 hspan
        obtain ⟨t, ht, rfl⟩ := h.targetNode?_eq_some_iff.1 hnode
        exact ⟨s, t, ⟨hj, by simpa using hstatic, hs, ht⟩, rfl⟩
      · cases hl
  · rintro ⟨s, t, hmakes, rfl⟩
    have hspan := Block.enclosing?_kept_eq_some_iff.2 ⟨s, hmakes.source, rfl⟩
    have hnode := h.targetNode?_eq_some_iff.2 ⟨t, hmakes.target, rfl⟩
    rw [hspan, hnode, hmakes.static]
    rfl

/-- A kept label runs into the next one that is kept if no line between the two ends it. -/
theorem mem_implicitLinks_iff (h : ReadFrom blocks labels jumps) {b : Block} (hb : b ∈ blocks) {l : RouteLink} :
    l ∈ RouteGraph.implicitLinks b (spansOf labels b.id) ↔
      ∃ s t, [s, t] <:+: b.kept labels ∧ hasTerminal (b.linesBetween s.line t.line) = false ∧
        l = ⟨s.node, t.node, .implicit⟩ := by
  have hpairs : ((b.kept labels).map LabelSite.span).zip (((b.kept labels).map LabelSite.span).drop 1) =
      ((b.kept labels).zip ((b.kept labels).drop 1)).map fun p => (p.1.span, p.2.span) := by
    rw [← List.map_drop, List.zip_map]
    rfl
  have hplain : ∀ {s t : LabelSite}, [s, t] <:+: b.kept labels → s ∈ b.plainLabels ∧ t ∈ b.plainLabels :=
    fun hpair => ⟨(Block.mem_kept.1 (hpair.subset (by simp))).1, (Block.mem_kept.1 (hpair.subset (by simp))).1⟩
  unfold RouteGraph.implicitLinks
  rw [h.spansOf_eq hb, hpairs]
  simp only [List.filterMap_map, List.mem_filterMap, Function.comp_apply]
  constructor
  · rintro ⟨⟨s, t⟩, hnext, hl⟩
    have hpair := mem_zip_drop.1 hnext
    split at hl
    · rename_i hruns
      rw [b.runsOn_span (hplain hpair).1 (hplain hpair).2] at hruns
      exact ⟨s, t, hpair, by simpa using hruns, (Option.some.inj hl).symm⟩
    · cases hl
  · rintro ⟨s, t, hpair, hends, rfl⟩
    refine ⟨(s, t), mem_zip_drop.2 hpair, ?_⟩
    rw [if_pos]
    · rfl
    · rw [b.runsOn_span (hplain hpair).1 (hplain hpair).2, hends]
      rfl

end ReadFrom
end Plotline
