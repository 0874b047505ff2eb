import Plotline.Proofs.Story.Ignored

/-!
# What tags say of a block

* `mem_contentTags`, `Roles.mem_tags_ofBlocks`: a block has the tags that its lines ask for, and one for jumps.
* `Usage.exists_line_of_spokenIn`: a line that a character speaks asks for the tag of dialogue.
* `TagsAgree`: the tags of a block agree with what the passes over labels, jumps, menus and speakers know of it.
* `Untouched`: the passes have found nothing in a block.
* `tags_agree`: one or the other holds of each block, as it is read or ignored.
-/

namespace Plotline
open Script

/-! ## Lines that ask for a tag -/

theorem mem_contentTags {content : String} {hasJumps : Bool} {isTag : String → Bool} {tag : ContentTag} :
    tag ∈ contentTags content hasJumps isTag ↔
      tag = .jump ∧ hasJumps = true ∨ ∃ line ∈ Text.lines content.toList, lineHas isTag line tag = true := by
  have hall : tag ∈ ContentTag.all := by cases tag <;> decide
  unfold contentTags
  rw [List.mem_filter, Bool.or_eq_true, Bool.and_eq_true, decide_eq_true_eq, List.any_eq_true]
  exact and_iff_right hall

theorem Usage.exists_line_of_spokenIn {t : Tables} {b : Block} (h : spokenIn t b ≠ []) :
    ∃ line ∈ Text.lines b.content.toList, lineHas t.characters.contains line .dialogue = true := by
  obtain ⟨d, hd⟩ := List.exists_mem_of_ne_nil _ h
  obtain ⟨l, hl, hd⟩ := List.mem_filterMap.1 hd
  obtain ⟨tag, htag, -⟩ := Option.map_eq_some_iff.1 hd
  obtain ⟨speaker, hspeaker, -⟩ := Option.bind_eq_some_iff.1 htag
  refine ⟨l.1, ?_, by rw [lineHas, hspeaker]; rfl⟩
  rw [← Block.map_numberedLines]
  exact List.mem_map_of_mem hl

/-! ## Tags and what the passes know -/

/-- The tags of a block agree with what the passes over labels, jumps, menus and speakers know of it. -/
structure TagsAgree (b : Block) (a : Analysis) : Prop where
  label_iff : .label ∈ a.roles.tags.getD b.id [] ↔ a.tables.firstLabels.contains b.id = true
  jump_iff : .jump ∈ a.roles.tags.getD b.id [] ↔ b.id ∉ a.roles.leaves.members
  branching : .menu ∈ a.roles.tags.getD b.id [] → b.id ∈ a.roles.branching.members
  menu : ∀ s ∈ b.facts.labels, s.kind = .menu → .menu ∈ a.roles.tags.getD b.id []
  dialogue : a.usage.dialogue.contains b.id = true → .dialogue ∈ a.roles.tags.getD b.id []

/-- A block has no tags, no first label, no jumps and no spoken lines. -/
structure Untouched (b : Block) (a : Analysis) : Prop where
  tags : a.roles.tags.get? b.id = none
  firstLabel : a.tables.firstLabels.get? b.id = none
  jumps : a.references.jumps.get? b.id = none
  dialogue : a.usage.dialogue.get? b.id = none

section OfBlocks
variable {blocks : List Block} {settings : AnalysisSettings} (hids : (blocks.map (·.id)).Nodup) {b : Block}
include hids

section Read
variable (hb : b ∈ readBlocks settings blocks)
include hb

/-- A block that is read has the tags that its lines ask for, and one for jumps. -/
theorem Roles.mem_tags_ofBlocks (tag : ContentTag) :
    tag ∈ (Analysis.ofBlocks blocks settings).roles.tags.getD b.id [] ↔
      tag = .jump ∧ b.jumps ≠ [] ∨ ∃ line ∈ Text.lines b.content.toList,
        lineHas (Tables.ofBlocks blocks settings).characters.contains line tag = true := by
  obtain ⟨hmem, hread⟩ := mem_readBlocks_iff.1 hb
  have htags := getD_tags_ofBlocks hids (Tables.ofBlocks blocks settings)
    (References.ofBlocks blocks (Tables.ofBlocks blocks settings)) settings hmem
  have hscanned : (Tables.ofBlocks blocks settings).hasScanned b.id = true := by
    rw [hasScanned_eq hids settings hmem, hread]
    rfl
  unfold Analysis.ofBlocks
  rw [htags, tagsOf, if_pos hscanned, jumps_ofBlocks hids hb, mem_contentTags]
  simp

theorem mem_leaves_iff : b.id ∈ (Analysis.ofBlocks blocks settings).roles.leaves.members ↔ b.jumps = [] := by
  unfold Analysis.ofBlocks
  simp only [Roles.ofBlocks_eq]
  rw [id_mem_idsWhere hids (mem_readBlocks_iff.1 hb).1, Roles.isLeaf, jumps_ofBlocks hids hb, List.isEmpty_iff]

theorem mem_branching_of_hasMenu (hmenu : b.hasMenu = true) :
    b.id ∈ (Analysis.ofBlocks blocks settings).roles.branching.members := by
  obtain ⟨hmem, hread⟩ := mem_readBlocks_iff.1 hb
  unfold Analysis.ofBlocks
  simp only [Roles.ofBlocks_eq]
  rw [id_mem_idsWhere hids hmem, Roles.isBranching, hasScanned_eq hids settings hmem, hread, hmenu]
  exact Bool.or_true _

theorem spokenIn_of_contains (h : (Analysis.ofBlocks blocks settings).usage.dialogue.contains b.id = true) :
    Usage.spokenIn (Tables.ofBlocks blocks settings) b ≠ [] := by
  intro hnil
  unfold Analysis.ofBlocks at h
  rw [Table.contains, Table.get?_of_entries (Usage.entries_dialogue_ofBlocks settings hids)
    (nodup_readBlocks settings hids) hb, if_pos hnil] at h
  cases h

theorem tagsAgree_of_read : TagsAgree b (Analysis.ofBlocks blocks settings) := by
  have htags := Roles.mem_tags_ofBlocks hids hb
  have hmenu : .menu ∈ (Analysis.ofBlocks blocks settings).roles.tags.getD b.id [] ↔ b.hasMenu = true := by
    rw [htags, Block.hasMenu, List.any_eq_true]
    exact or_iff_right (by simp)
  constructor
  · have hfirst := contains_firstLabels_iff hids hb
    rw [Block.plainLabels_ne_nil_iff] at hfirst
    exact (htags .label).trans ((or_iff_right (by simp)).trans hfirst.symm)
  · rw [htags, mem_leaves_iff hids hb]
    simp [lineHas]
  · intro h
    exact mem_branching_of_hasMenu hids hb (hmenu.1 h)
  · intro s hs hkind
    exact hmenu.2 (Block.hasMenu_of_namedMenu (Block.mem_namedMenus.2 ⟨hs, hkind⟩))
  · intro h
    exact (htags .dialogue).2 (Or.inr (Usage.exists_line_of_spokenIn (spokenIn_of_contains hids hb h)))

end Read

theorem untouched_of_ignored (hb : b ∈ blocks) (hignored : settings.ignores b.path = true) :
    Untouched b (Analysis.ofBlocks blocks settings) := by
  have hunread := unread_of_ignored hids hb hignored
  constructor
  · unfold Analysis.ofBlocks
    simp only [Roles.ofBlocks_eq]
    rw [Table.get?_of_entries (Roles.entries_tags _ _ hids) hids hb, Roles.tagsOf_of_unread hunread]
    rfl
  · exact Roles.get?_firstLabels_of_unread hids hunread
  · exact Roles.get?_jumps_of_unread hids hunread
  · exact Roles.get?_dialogue_of_unread hids hunread

end OfBlocks

/-- **Tags agree with the other passes.** A block that is read is tagged as its first label, its jumps, its menus and
its speakers have it; in an ignored block the passes have found nothing. -/
theorem tags_agree (settings : AnalysisSettings) {blocks : List Block} (hids : (blocks.map (·.id)).Nodup) {b : Block}
    (hb : b ∈ blocks) :
    (settings.ignores b.path = false → TagsAgree b (Analysis.ofBlocks blocks settings)) ∧
      (settings.ignores b.path = true → Untouched b (Analysis.ofBlocks blocks settings)) := by
  refine ⟨fun hread => ?_, untouched_of_ignored hids hb⟩
  exact tagsAgree_of_read hids (mem_readBlocks_iff.2 ⟨hb, hread⟩)

def harbor : Block :=
  { id := "h"
    content := "define s = Character(\"Sue\")\nlabel harbor:\n menu pier:\n  \"Stay.\":\n   s \"Fine.\"\n jump harbor\n" }

theorem tags_agree_harbor :
    (([harbor, draft].map (·.id)).Nodup ∧ harbor ∈ [harbor, draft] ∧ draft ∈ [harbor, draft] ∧
      AnalysisSettings.usual.ignores harbor.path = false ∧ AnalysisSettings.usual.ignores draft.path = true) ∧
      TagsAgree harbor (Analysis.ofBlocks [harbor, draft] .usual) ∧
      Untouched draft (Analysis.ofBlocks [harbor, draft] .usual) := by
  have hids : ([harbor, draft].map (·.id)).Nodup := by decide
  have hread : AnalysisSettings.usual.ignores harbor.path = false := by decide +kernel
  have hignored : AnalysisSettings.usual.ignores draft.path = true := by decide +kernel
  have hharbor : harbor ∈ [harbor, draft] := by simp
  have hdraft : draft ∈ [harbor, draft] := by simp
  exact ⟨⟨hids, hharbor, hdraft, hread, hignored⟩, (tags_agree .usual hids hharbor).1 hread,
    (tags_agree .usual hids hdraft).2 hignored⟩

example : (Analysis.ofBlocks [harbor, draft] .usual).roles.tags.getD "h" [] = [.dialogue, .jump, .label, .menu] := by
  decide +kernel

end Plotline
