import Mathlib.Data.List.Perm.Subperm
import Plotline.Proofs.Story.Ignored

/-!
# Roles of blocks and links between them

* `Roles.targetsOf`: the blocks that the static jumps of a block lead to.
* `exists_link_iff_targetsOf`: a block is linked to the blocks other than itself that its jumps lead to.
* `length_links_le`: a block has no more links than blocks that its jumps lead to.
* `Roles.Fit`: every block belongs to one part, and roots, leaves and branching blocks fit the links and jumps.
* `roles_fit`: the roles in an analysis do.
-/

namespace Plotline

/-! ## Blocks that jumps lead to -/

/-- The blocks that the static jumps of a block lead to. -/
def Roles.targetsOf (t : Tables) (refs : References) (b : Block) : NameSet := targetBlocks t (refs.jumps.getD b.id [])

theorem Roles.mem_targetsOf {t : Tables} {refs : References} {b : Block} {x : String} :
    x ∈ (targetsOf t refs b).members ↔ ∃ j ∈ refs.jumps.getD b.id [], j.dynamic = false ∧
      ∃ s, t.labels.get? j.target = some s ∧ s.block = x := by
  unfold targetsOf targetBlocks
  rw [NameSet.members_ofList, List.mem_eraseDups, List.mem_filterMap]
  refine exists_congr fun j => and_congr_right fun _ => ?_
  cases j.dynamic <;> simp

section OfBlocks
variable {blocks : List Block} {settings : AnalysisSettings} (hids : (blocks.map (·.id)).Nodup)
include hids

theorem jumps_of_ignored {b : Block} (hb : b ∈ blocks) (hignored : settings.ignores b.path = true) :
    (References.ofBlocks blocks (Tables.ofBlocks blocks settings)).jumps.getD b.id [] = [] :=
  Roles.jumps_of_unread hids (unread_of_ignored hids hb hignored)

theorem exists_link_iff_targetsOf {b : Block} (hb : b ∈ blocks) {x : String} :
    (∃ k ∈ (References.ofBlocks blocks (Tables.ofBlocks blocks settings)).links, k.source = b.id ∧ k.target = x) ↔
      x ∈ (Roles.targetsOf (Tables.ofBlocks blocks settings)
        (References.ofBlocks blocks (Tables.ofBlocks blocks settings)) b).members ∧ x ≠ b.id := by
  rw [exists_link_iff hids, Roles.mem_targetsOf]
  constructor
  · rintro ⟨c, hc, hid, j, henters⟩
    obtain rfl : c = b := List.inj_on_of_nodup_map hids (mem_readBlocks_iff.1 hc).1 hb hid
    rw [jumps_ofBlocks hids hc]
    exact ⟨⟨j, henters.mem, henters.static, henters.resolved⟩, henters.leaves⟩
  · rintro ⟨⟨j, hj, hstatic, hresolved⟩, hne⟩
    cases hignored : settings.ignores b.path with
    | true =>
        rw [jumps_of_ignored hids hb hignored] at hj
        exact absurd hj List.not_mem_nil
    | false =>
        have hread : b ∈ readBlocks settings blocks := mem_readBlocks_iff.2 ⟨hb, hignored⟩
        rw [jumps_ofBlocks hids hread] at hj
        exact ⟨b, hread, rfl, j, ⟨hj, hstatic, hresolved, hne⟩⟩

theorem length_links_le {b : Block} (hb : b ∈ blocks) :
    ((References.ofBlocks blocks (Tables.ofBlocks blocks settings)).links.filter (·.source = b.id)).length ≤
      (Roles.targetsOf (Tables.ofBlocks blocks settings)
        (References.ofBlocks blocks (Tables.ofBlocks blocks settings)) b).size := by
  have hends : ((References.ofBlocks blocks (Tables.ofBlocks blocks settings)).links.map
      fun k => (k.source, k.target)).Nodup := References.nodup_ends_ofBlocks hids
  -- The links of one block differ in their targets.
  have htargets : (((References.ofBlocks blocks (Tables.ofBlocks blocks settings)).links.filter
      (·.source = b.id)).map (·.target)).Nodup := by
    unfold List.Nodup at hends ⊢
    rw [List.pairwise_map] at hends ⊢
    refine (hends.sublist List.filter_sublist).imp_of_mem fun {k l} hk hl hne htarget => hne ?_
    have hsource : k.source = l.source :=
      (of_decide_eq_true (List.mem_filter.1 hk).2).trans (of_decide_eq_true (List.mem_filter.1 hl).2).symm
    rw [hsource, htarget]
  have hsubset : ((References.ofBlocks blocks (Tables.ofBlocks blocks settings)).links.filter
      (·.source = b.id)).map (·.target) ⊆ (Roles.targetsOf (Tables.ofBlocks blocks settings)
        (References.ofBlocks blocks (Tables.ofBlocks blocks settings)) b).members := by
    intro x hx
    obtain ⟨k, hk, rfl⟩ := List.mem_map.1 hx
    obtain ⟨hmem, hsource⟩ := List.mem_filter.1 hk
    exact ((exists_link_iff_targetsOf hids hb).1 ⟨k, hmem, of_decide_eq_true hsource, rfl⟩).1
  have hlength := (List.subperm_of_subset htargets hsubset).length_le
  rwa [List.length_map] at hlength

/-- If the jumps of a block lead to more than one block, one of these is another block. -/
theorem exists_link_of_size {b : Block} (hb : b ∈ blocks)
    (hsize : 1 < (Roles.targetsOf (Tables.ofBlocks blocks settings)
        (References.ofBlocks blocks (Tables.ofBlocks blocks settings)) b).size) :
    ∃ k ∈ (References.ofBlocks blocks (Tables.ofBlocks blocks settings)).links, k.source = b.id := by
  by_contra hnone
  push Not at hnone
  have hsubset : (Roles.targetsOf (Tables.ofBlocks blocks settings)
        (References.ofBlocks blocks (Tables.ofBlocks blocks settings)) b).members ⊆ [b.id] := by
    intro x hx
    by_contra hne
    rw [List.mem_singleton] at hne
    obtain ⟨k, hk, hsource, -⟩ := (exists_link_iff_targetsOf hids hb).2 ⟨hx, hne⟩
    exact hnone k hk hsource
  have hlength := (List.subperm_of_subset (NameSet.nodup _) hsubset).length_le
  unfold NameSet.size at hsize
  rw [List.length_singleton] at hlength
  omega

end OfBlocks

/-! ## The roles of all blocks -/

/-- Every block belongs to one part, and roots, leaves and branching blocks fit the links and jumps. -/
structure Roles.Fit (blocks : List Block) (refs : References) (r : Roles) : Prop where
  parts : ∀ id, id ∈ r.story.members ∨ id ∈ r.screenOnly.members ∨ id ∈ r.config.members ↔ id ∈ blocks.map (·.id)
  story_screenOnly : r.story.members.Disjoint r.screenOnly.members
  story_config : r.story.members.Disjoint r.config.members
  screenOnly_config : r.screenOnly.members.Disjoint r.config.members
  root_iff : ∀ b ∈ blocks, b.id ∈ r.roots.members ↔ ∀ k ∈ refs.links, k.target ≠ b.id
  leaf_iff : ∀ b ∈ blocks, b.id ∈ r.leaves.members ↔ refs.jumps.getD b.id [] = []
  branching_of_links : ∀ b ∈ blocks, 2 ≤ (refs.links.filter (·.source = b.id)).length → b.id ∈ r.branching.members
  link_of_branching : ∀ b ∈ blocks, b.id ∈ r.branching.members → b.hasMenu = false →
    ∃ k ∈ refs.links, k.source = b.id

theorem disjoint_idsWhere_partOf {blocks : List Block} (hids : (blocks.map (·.id)).Nodup) (t : Tables)
    (settings : AnalysisSettings) {part part' : Roles.Part} (hne : part ≠ part') :
    (idsWhere (Roles.partOf t settings · = part) blocks).members.Disjoint
      (idsWhere (Roles.partOf t settings · = part') blocks).members := by
  intro id hmem hmem'
  obtain ⟨b, hb, hpart, rfl⟩ := mem_idsWhere.1 hmem
  rw [id_mem_idsWhere hids hb] at hmem'
  exact hne ((of_decide_eq_true hpart).symm.trans (of_decide_eq_true hmem'))

/-- **Roles, links and jumps.** The story, the screens and the configuration share the blocks out among them; roots are
the blocks that no link targets, leaves those without a jump; a block with two links is branching, and a branching block
without a menu has a link. -/
theorem roles_fit (settings : AnalysisSettings) {blocks : List Block} (hids : (blocks.map (·.id)).Nodup) :
    (Analysis.ofBlocks blocks settings).roles.Fit blocks (Analysis.ofBlocks blocks settings).references := by
  unfold Analysis.ofBlocks
  simp only [Roles.ofBlocks_eq]
  refine { parts := fun id => ?_, story_screenOnly := disjoint_idsWhere_partOf hids _ settings (by decide),
           story_config := disjoint_idsWhere_partOf hids _ settings (by decide),
           screenOnly_config := disjoint_idsWhere_partOf hids _ settings (by decide), root_iff := fun b hb => ?_,
           leaf_iff := fun b hb => ?_, branching_of_links := fun b hb htwo => ?_,
           link_of_branching := fun b hb hbranching hmenu => ?_ }
  · rw [List.mem_map]
    constructor
    · rintro (h | h | h)
      all_goals
        obtain ⟨b, hb, -, hid⟩ := mem_idsWhere.1 h
        exact ⟨b, hb, hid⟩
    · rintro ⟨b, hb, rfl⟩
      simp only [id_mem_idsWhere hids hb, decide_eq_true_eq]
      cases Roles.partOf (Tables.ofBlocks blocks settings) settings b <;> simp
  · rw [id_mem_idsWhere hids hb, Roles.isRoot, Bool.not_eq_true', List.any_eq_false]
    simp only [decide_eq_true_eq]
  · rw [id_mem_idsWhere hids hb, Roles.isLeaf, List.isEmpty_iff]
  · have hsize := htwo.trans (length_links_le hids hb)
    rw [id_mem_idsWhere hids hb, Roles.isBranching, Bool.or_eq_true]
    exact Or.inl (decide_eq_true hsize)
  · rw [id_mem_idsWhere hids hb, Roles.isBranching, hmenu, Bool.and_false, Bool.or_false] at hbranching
    exact exists_link_of_size hids hb (of_decide_eq_true hbranching)

/-- A crossing, the two places that it leads to, and a signpost. -/
def crossroads : List Block := [
  { id := "c", content := "menu:\n \"Left.\":\n  jump mill\n \"Right.\":\n  jump farm\n" },
  { id := "m", content := "label mill:\n" }, { id := "f", content := "label farm:\n" },
  { id := "s", content := "screen signpost():\n" }]

theorem roles_fit_crossroads : (crossroads.map (·.id)).Nodup ∧
    (Analysis.ofBlocks crossroads .usual).roles.Fit crossroads (Analysis.ofBlocks crossroads .usual).references ∧
      "c" ∈ (Analysis.ofBlocks crossroads .usual).roles.branching.members := by
  have hids : (crossroads.map (·.id)).Nodup := by decide
  have hfit := roles_fit .usual hids
  have hlinks : 2 ≤ ((Analysis.ofBlocks crossroads .usual).references.links.filter (·.source = "c")).length := by
    decide +kernel
  exact ⟨hids, hfit, hfit.branching_of_links _ List.mem_cons_self hlinks⟩

end Plotline
