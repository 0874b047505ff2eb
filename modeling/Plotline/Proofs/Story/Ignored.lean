import Plotline.Proofs.Story.References
import Plotline.Proofs.Story.Roles
import Plotline.Proofs.Story.Usage
import Plotline.Route.Analysis

/-!
# Blocks that are ignored

* `Tables.ofBlocks_congr`, `RouteGraph.of_congr`: all passes but the one over roles see only the blocks that are read.
* `Roles.isRoot_of_unread` and its likes: the roles of a block that is not read follow from its path.
* `OnlyListed`: what one more ignored block changes in an analysis.
* `ignored_block_only_listed`: it is listed as a root and a leaf, and as story or configuration by its path; nothing
  else changes.
-/

namespace Plotline
open Script

/-! ## Passes over the blocks that are read -/

section Passes
variable {settings : AnalysisSettings} {xs ys : List Block}

theorem Tables.ofBlocks_congr (h : readBlocks settings xs = readBlocks settings ys) :
    Tables.ofBlocks xs settings = Tables.ofBlocks ys settings := by
  show Tables.dropTags (List.foldl _ _ (readBlocks settings xs)) = _
  rw [h]
  rfl

theorem RouteGraph.of_congr (h : readBlocks settings xs = readBlocks settings ys) (labels : Table String LabelSite)
    (jumps : Table String (List Jump)) :
    RouteGraph.of xs labels jumps settings = RouteGraph.of ys labels jumps settings := by
  show List.foldl _ _ (readBlocks settings xs) = _
  rw [h]
  rfl

end Passes

/-! ## Blocks that are not read -/

namespace Roles
variable {settings : AnalysisSettings} {blocks : List Block} (hids : (blocks.map (·.id)).Nodup) {b : Block}
  (hunread : b.id ∉ (readBlocks settings blocks).map (·.id))
include hunread

theorem hasScanned_of_unread : (Tables.ofBlocks blocks settings).hasScanned b.id = false := by
  rw [Tables.hasScanned, scanned_ofBlocks, List.contains_eq_mem, decide_eq_false_iff_not]
  exact hunread

theorem block_ne_of_get?_labels {name : String} {s : LabelSite}
    (h : (Tables.ofBlocks blocks settings).labels.get? name = some s) : s.block ≠ b.id := by
  obtain ⟨-, c, hc, hs⟩ := mem_of_get?_labels h
  rw [Block.block_of_mem_labels hs]
  exact fun hid => hunread (hid ▸ List.mem_map_of_mem hc)

theorem block_ne_of_get?_screens {name : String} {s : Screen}
    (h : (Tables.ofBlocks blocks settings).screens.get? name = some s) : s.block ≠ b.id := by
  rw [get?_screens_ofBlocks] at h
  obtain ⟨c, hc, hs⟩ := List.mem_flatMap.1 (List.mem_reverse.1 (List.mem_of_find?_eq_some h))
  rw [block_of_mem_screens hs]
  exact fun hid => hunread (hid ▸ List.mem_map_of_mem hc)

include hids

theorem get?_firstLabels_of_unread : (Tables.ofBlocks blocks settings).firstLabels.get? b.id = none :=
  Table.get?_of_entries_notMem (entries_firstLabels_ofBlocks settings hids) hunread

theorem get?_dialogue_of_unread :
    (Usage.ofBlocks blocks (Tables.ofBlocks blocks settings)).dialogue.get? b.id = none :=
  Table.get?_of_entries_notMem (Usage.entries_dialogue_ofBlocks settings hids) hunread

theorem get?_jumps_of_unread :
    (References.ofBlocks blocks (Tables.ofBlocks blocks settings)).jumps.get? b.id = none := by
  rw [Table.get?_eq_none_iff, Table.keys, entries_jumps_ofBlocks settings hids, List.map_map]
  exact hunread

theorem jumps_of_unread : (References.ofBlocks blocks (Tables.ofBlocks blocks settings)).jumps.getD b.id [] = [] := by
  rw [Table.getD, get?_jumps_of_unread hids hunread]
  rfl

theorem isRoot_of_unread : isRoot (References.ofBlocks blocks (Tables.ofBlocks blocks settings)) b = true := by
  rw [isRoot, Bool.not_eq_true', List.any_eq_false]
  intro k hk
  obtain ⟨c, -, -, j, henters⟩ := (exists_link_iff hids).1 ⟨k, hk, rfl, rfl⟩
  obtain ⟨s, hs, hblock⟩ := henters.resolved
  simpa [← hblock] using block_ne_of_get?_labels hunread hs

theorem isLeaf_of_unread : isLeaf (References.ofBlocks blocks (Tables.ofBlocks blocks settings)) b = true := by
  rw [isLeaf, jumps_of_unread hids hunread]
  rfl

theorem isBranching_of_unread : isBranching (Tables.ofBlocks blocks settings)
    (References.ofBlocks blocks (Tables.ofBlocks blocks settings)) b = false := by
  rw [isBranching, jumps_of_unread hids hunread, hasScanned_of_unread hunread]
  rfl

omit hids in
theorem tagsOf_of_unread : tagsOf (Tables.ofBlocks blocks settings)
    (References.ofBlocks blocks (Tables.ofBlocks blocks settings)) b = [] := by
  rw [tagsOf, hasScanned_of_unread hunread]
  rfl

/-- A block that is not read is story by its path alone. -/
theorem partOf_of_unread : partOf (Tables.ofBlocks blocks settings) settings b =
    if settings.isStoryPath b.path then .story else .config := by
  have hlabels : (Tables.ofBlocks blocks settings).labels.values.any (·.block = b.id) = false := by
    rw [List.any_eq_false]
    intro s hs
    obtain ⟨name, hget⟩ := Table.mem_values.1 hs
    simpa using block_ne_of_get?_labels hunread hget
  have hscreens : (Tables.ofBlocks blocks settings).screens.values.any (·.block = b.id) = false := by
    rw [List.any_eq_false]
    intro s hs
    obtain ⟨name, hget⟩ := Table.mem_values.1 hs
    simpa using block_ne_of_get?_screens hunread hget
  have hfirst : (Tables.ofBlocks blocks settings).firstLabels.contains b.id = false := by
    rw [Table.contains, get?_firstLabels_of_unread hids hunread]
    rfl
  rw [partOf, hlabels, hscreens, hfirst]
  simp

end Roles

/-! ## One ignored block -/

/-- One more block in an analysis, with which it is `a`, changes nothing but four sets, and stands in these by its path
alone. -/
structure OnlyListed (settings : AnalysisSettings) (b : Block) (a without : Analysis) : Prop where
  tables : a.tables = without.tables
  references : a.references = without.references
  usage : a.usage = without.usage
  branching : a.roles.branching = without.roles.branching
  screenOnly : a.roles.screenOnly = without.roles.screenOnly
  tags : a.roles.tags = without.roles.tags
  roots : a.roles.roots.members.filter (· ≠ b.id) = without.roles.roots.members
  leaves : a.roles.leaves.members.filter (· ≠ b.id) = without.roles.leaves.members
  story : a.roles.story.members.filter (· ≠ b.id) = without.roles.story.members
  config : a.roles.config.members.filter (· ≠ b.id) = without.roles.config.members
  root : b.id ∈ a.roles.roots.members
  leaf : b.id ∈ a.roles.leaves.members
  story_iff : b.id ∈ a.roles.story.members ↔ settings.isStoryPath b.path = true
  config_iff : b.id ∈ a.roles.config.members ↔ settings.isStoryPath b.path = false

section Ignored
variable {front back : List Block} {b : Block}

theorem idsWhere_of_false {p : Block → Bool} (hp : p b = false) :
    idsWhere p (front ++ b :: back) = idsWhere p (front ++ back) := by
  unfold idsWhere
  rw [List.filter_append, List.filter_cons, if_neg (by simp [hp]), ← List.filter_append]

variable (hids : ((front ++ b :: back).map (·.id)).Nodup)
include hids

theorem nodup_without : ((front ++ back).map (·.id)).Nodup :=
  hids.sublist ((List.Sublist.append_left (List.sublist_cons_self b back) front).map _)

theorem id_ne_of_mem {c : Block} (hc : c ∈ front ++ back) : c.id ≠ b.id := by
  rw [List.map_append, List.map_cons, List.nodup_middle, List.nodup_cons, ← List.map_append] at hids
  exact fun hid => hids.1 (hid ▸ List.mem_map_of_mem hc)

theorem filter_members_idsWhere (p : Block → Bool) :
    (idsWhere p (front ++ b :: back)).members.filter (· ≠ b.id) = (idsWhere p (front ++ back)).members := by
  have hkeep : ∀ cs : List Block, (∀ c ∈ cs, c ∈ front ++ back) →
      ((cs.filter p).map (·.id)).filter (· ≠ b.id) = (cs.filter p).map (·.id) := by
    intro cs hcs
    rw [List.filter_eq_self]
    intro id hid
    obtain ⟨c, hc, rfl⟩ := List.mem_map.1 hid
    simpa using id_ne_of_mem hids (hcs c (List.mem_filter.1 hc).1)
  rw [members_idsWhere hids, members_idsWhere (nodup_without hids)]
  simp only [List.filter_append, List.map_append, List.filter_cons]
  rw [hkeep front fun c hc => List.mem_append_left _ hc]
  congr 1
  cases hp : p b with
  | false => exact hkeep back fun c hc => List.mem_append_right _ hc
  | true =>
      show ((b :: back.filter p).map (·.id)).filter (· ≠ b.id) = _
      rw [List.map_cons, List.filter_cons, if_neg (by simp)]
      exact hkeep back fun c hc => List.mem_append_right _ hc

variable {settings : AnalysisSettings} (hignored : settings.ignores b.path = true)
include hignored

omit hids in
theorem readBlocks_ignored : readBlocks settings (front ++ b :: back) = readBlocks settings (front ++ back) := by
  unfold readBlocks
  rw [List.filter_append, List.filter_cons, if_neg (by simp [hignored]), ← List.filter_append]

theorem onlyListed_of_ignored : OnlyListed settings b (Analysis.ofBlocks (front ++ b :: back) settings)
    (Analysis.ofBlocks (front ++ back) settings) := by
  have hread : readBlocks settings (front ++ b :: back) = readBlocks settings (front ++ back) :=
    readBlocks_ignored hignored
  have hmem : b ∈ front ++ b :: back := by simp
  have hunread := unread_of_ignored hids hmem hignored
  have htables : Tables.ofBlocks (front ++ back) settings = Tables.ofBlocks (front ++ b :: back) settings :=
    Tables.ofBlocks_congr hread.symm
  have hreferences : References.ofBlocks (front ++ back) (Tables.ofBlocks (front ++ back) settings) =
      References.ofBlocks (front ++ b :: back) (Tables.ofBlocks (front ++ b :: back) settings) := by
    rw [References.ofBlocks_eq settings hids, References.ofBlocks_eq settings (nodup_without hids), hread, htables]
  have husage : Usage.ofBlocks (front ++ back) (Tables.ofBlocks (front ++ back) settings) =
      Usage.ofBlocks (front ++ b :: back) (Tables.ofBlocks (front ++ b :: back) settings) := by
    rw [Usage.ofBlocks_eq settings hids, Usage.ofBlocks_eq settings (nodup_without hids), hread, htables]
  have hroot := Roles.isRoot_of_unread hids hunread
  have hleaf := Roles.isLeaf_of_unread hids hunread
  have hbranching := Roles.isBranching_of_unread hids hunread
  have hpart := Roles.partOf_of_unread hids hunread
  have htags := Roles.tagsOf_of_unread hunread
  rw [htables] at hreferences husage
  unfold Analysis.ofBlocks
  simp only [htables, hreferences, husage, Roles.ofBlocks_eq]
  refine ⟨rfl, rfl, rfl, idsWhere_of_false hbranching, idsWhere_of_false ?_, ?_, filter_members_idsWhere hids _,
    filter_members_idsWhere hids _, filter_members_idsWhere hids _, filter_members_idsWhere hids _,
    (id_mem_idsWhere hids hmem).2 hroot, (id_mem_idsWhere hids hmem).2 hleaf, (id_mem_idsWhere hids hmem).trans ?_,
    (id_mem_idsWhere hids hmem).trans ?_⟩
  · rw [hpart]
    cases settings.isStoryPath b.path <;> rfl
  · rw [List.foldl_append, List.foldl_cons, List.foldl_append]
    unfold Roles.addTags
    rw [htags]
    rfl
  · rw [hpart]
    cases settings.isStoryPath b.path <;> simp
  · rw [hpart]
    cases settings.isStoryPath b.path <;> simp

end Ignored

/-- Leaving an ignored block out of a project takes it out of four sets, in which it stood by its path alone, and
changes nothing else; the routes stay the same. -/
theorem ignored_block_only_listed (settings : Settings) {front back : List Block} {b : Block}
    (hids : ((front ++ b :: back).map (·.id)).Nodup) (hignored : settings.analysis.ignores b.path = true) :
    OnlyListed settings.analysis b (Analysis.ofBlocks (front ++ b :: back) settings.analysis)
        (Analysis.ofBlocks (front ++ back) settings.analysis) ∧
      RouteAnalysis.ofAnalysis (front ++ b :: back)
          (Analysis.ofBlocks (front ++ b :: back) settings.analysis) settings =
        RouteAnalysis.ofAnalysis (front ++ back) (Analysis.ofBlocks (front ++ back) settings.analysis) settings ∧
      (settings.analysis.stumbles b.path = false →
        Analysis.refuses (front ++ b :: back) settings.analysis =
          Analysis.refuses (front ++ back) settings.analysis) := by
  have honly := onlyListed_of_ignored hids hignored
  refine ⟨honly, ?_, fun hstumbles => ?_⟩
  · unfold RouteAnalysis.ofAnalysis RouteAnalysis.of
    rw [honly.tables, honly.references, RouteGraph.of_congr (readBlocks_ignored hignored)]
  · unfold Analysis.refuses
    rw [List.any_append, List.any_cons, hstumbles, Bool.false_or, ← List.any_append]

/-- A block that a draft defines again. -/
def street : Block := { id := "a", content := "label street:\n \"We walk.\"\n" }

def draft : Block :=
  { id := "b", content := "label street:\n jump shop\nlabel shop:\n", path := some "game/debug_placeholders.rpy" }

theorem ignored_block_only_listed_draft :
    ((([street] ++ draft :: []).map (·.id)).Nodup ∧ ({} : Settings).analysis.ignores draft.path = true) ∧
      OnlyListed .usual draft (Analysis.ofBlocks ([street] ++ draft :: []) .usual)
          (Analysis.ofBlocks ([street] ++ []) .usual) ∧
        RouteAnalysis.ofAnalysis ([street] ++ draft :: []) (Analysis.ofBlocks ([street] ++ draft :: []) .usual) {} =
          RouteAnalysis.ofAnalysis ([street] ++ []) (Analysis.ofBlocks ([street] ++ []) .usual) {} ∧
        Analysis.refuses ([street] ++ draft :: []) .usual = Analysis.refuses ([street] ++ []) .usual := by
  have hids : (([street] ++ draft :: []).map (·.id)).Nodup := by decide
  have hignored : ({} : Settings).analysis.ignores draft.path = true := by decide +kernel
  obtain ⟨honly, hroutes, hrefuses⟩ := ignored_block_only_listed {} hids hignored
  exact ⟨⟨hids, hignored⟩, honly, hroutes, hrefuses (by decide +kernel)⟩

end Plotline
