import Plotline.Proofs.Story.References
import Plotline.Proofs.Story.Roles
import Plotline.Proofs.Story.Usage

/-!
# The order of the blocks of a story

* `DefinesOnce`: no name is defined twice.
* `Tables.Agree`, `References.Agree`, `Roles.Agree`, `Usage.Agree`: results of a pass that differ in order alone.
* `Tables.agree_of_perm`: blocks that define no name twice have the same tables in any order.
* `References.agree_of_perm`, `Roles.agree_of_perm`, `Usage.agree_of_perm`: passes over blocks in another order agree if
  the passes before them did.
* `Analysis.agree_of_perm`: the analyses of blocks in two orders.
-/

namespace Plotline
open Script

/-! ## Results that agree -/

/-- The sets have the same members. -/
def NameSet.Agree (s s' : NameSet) : Prop := ∀ x, x ∈ s.members ↔ x ∈ s'.members

/-- The blocks define the same. -/
structure Tables.Agree (t t' : Tables) : Prop where
  labels : t.labels.Agree t'.labels
  firstLabels : t.firstLabels.Agree t'.firstLabels
  characters : t.characters.Agree t'.characters
  vars : t.vars.Agree t'.vars
  screens : t.screens.Agree t'.screens
  images : t.images.Agree t'.images
  scanned : t.scanned.Perm t'.scanned

/-- The jumps lead to the same places. -/
structure References.Agree (r r' : References) : Prop where
  jumps : r.jumps.Agree r'.jumps
  links : r.links.Perm r'.links
  invalid : r.invalid.Agree r'.invalid

/-- The blocks have the same roles. -/
structure Roles.Agree (r r' : Roles) : Prop where
  roots : r.roots.Agree r'.roots
  leaves : r.leaves.Agree r'.leaves
  branching : r.branching.Agree r'.branching
  story : r.story.Agree r'.story
  screenOnly : r.screenOnly.Agree r'.screenOnly
  config : r.config.Agree r'.config
  tags : r.tags.Agree r'.tags

/-- The characters speak the same lines, and each variable is used in the same places, which may be listed in another
order. -/
structure Usage.Agree (u u' : Usage) : Prop where
  spoken : u.spoken.Agree u'.spoken
  dialogue : u.dialogue.Agree u'.dialogue
  uses : ∀ name, Option.Rel List.Perm (u.uses.get? name) (u'.uses.get? name)

/-- The analyses differ in order alone. -/
structure Analysis.Agree (a a' : Analysis) : Prop where
  tables : a.tables.Agree a'.tables
  references : a.references.Agree a'.references
  roles : a.roles.Agree a'.roles
  usage : a.usage.Agree a'.usage

/-! ## Names that are defined once -/

/-- No label or named menu, character, variable or screen has the name of another one. -/
structure DefinesOnce (bs : List Block) : Prop where
  labels : (bs.flatMap fun b => b.facts.labels.map (·.label)).Nodup
  characters : (bs.flatMap fun b => b.facts.characters.map (·.tag)).Nodup
  vars : (bs.flatMap fun b => b.facts.vars.map (·.name)).Nodup
  screens : (bs.flatMap fun b => b.facts.screens.map (·.name)).Nodup

section Names
variable {bs bs' : List Block} (hperm : bs.Perm bs')
include hperm

theorem DefinesOnce.of_perm (h : DefinesOnce bs) : DefinesOnce bs' where
  labels := (hperm.flatMap_right _).nodup_iff.1 h.labels
  characters := (hperm.flatMap_right _).nodup_iff.1 h.characters
  vars := (hperm.flatMap_right _).nodup_iff.1 h.vars
  screens := (hperm.flatMap_right _).nodup_iff.1 h.screens

/-- The last definition of a name is the same in any order if there is one at most. -/
theorem find?_definition_of_perm {α : Type} {definitions : Block → List α} {key : α → String}
    (hkeys : (bs.flatMap fun b => (definitions b).map key).Nodup) (name : String) :
    (bs.flatMap definitions).reverse.find? (key · = name) = (bs'.flatMap definitions).reverse.find? (key · = name) := by
  refine find?_key_of_perm key ?_ ?_ name
  · exact (List.reverse_perm _).trans ((hperm.flatMap_right definitions).trans (List.reverse_perm _).symm)
  · rw [List.map_reverse, List.nodup_reverse, List.map_flatMap]
    exact hkeys

end Names

/-! ## Tables -/

theorem Tables.Agree.hasScanned {t t' : Tables} (h : t.Agree t') (id : String) :
    t.hasScanned id = t'.hasScanned id := by
  rw [Bool.eq_iff_iff, Tables.hasScanned, Tables.hasScanned, List.contains_iff_mem, List.contains_iff_mem,
    h.scanned.mem_iff]

section OfBlocks
variable {blocks blocks' : List Block} {settings : AnalysisSettings} (hperm : blocks.Perm blocks')
  (hids : (blocks.map (·.id)).Nodup)
include hperm

theorem readBlocks_perm (settings : AnalysisSettings) :
    (readBlocks settings blocks).Perm (readBlocks settings blocks') := hperm.filter _

include hids

theorem nodup_ids_of_perm : (blocks'.map (·.id)).Nodup := (hperm.map _).nodup_iff.1 hids

theorem Tables.agree_of_perm (honce : DefinesOnce (readBlocks settings blocks)) :
    (Tables.ofBlocks blocks settings).Agree (Tables.ofBlocks blocks' settings) := by
  have hread := readBlocks_perm hperm settings
  have hids' := nodup_ids_of_perm hperm hids
  have honce' := honce.of_perm hread
  have hcharacters : (Tables.ofBlocks blocks settings).characters.Agree
      (Tables.ofBlocks blocks' settings).characters := by
    intro tag
    rw [get?_characters_ofBlocks, get?_characters_ofBlocks]
    exact find?_definition_of_perm hread honce.characters tag
  refine { labels := .of_perm ?_, firstLabels := .of_perm ?_, characters := hcharacters, vars := fun name => ?_,
           screens := fun name => ?_, images := fun name => ?_, scanned := ?_ }
  · rw [entries_labels_ofBlocks honce.labels, entries_labels_ofBlocks honce'.labels]
    exact (hread.flatMap_right _).map _
  · rw [entries_firstLabels_ofBlocks settings hids, entries_firstLabels_ofBlocks settings hids']
    exact hread.filterMap _
  · rw [get?_vars_ofBlocks, get?_vars_ofBlocks, find?_definition_of_perm hread honce.vars, hcharacters.contains]
  · rw [get?_screens_ofBlocks, get?_screens_ofBlocks]
    exact find?_definition_of_perm hread honce.screens name
  · simp only [mem_images_ofBlocks, hread.mem_iff]
  · rw [scanned_ofBlocks, scanned_ofBlocks]
    exact hread.map _

end OfBlocks

/-! ## References -/

namespace References

section Labels
variable {labels labels' : Table String LabelSite} (h : labels.Agree labels')
include h

theorem link?_congr : link? labels = link? labels' := by
  funext block j
  unfold link?
  rw [h j.target]

theorem invalidOf?_congr : invalidOf? labels = invalidOf? labels' := by
  have hmisses : ∀ j, Misses labels j ↔ Misses labels' j := by
    intro j
    unfold Misses
    rw [h j.target]
  funext b
  unfold invalidOf? missed
  simp only [hmisses]

end Labels

section OfBlocks
variable {blocks blocks' : List Block} {settings : AnalysisSettings}

theorem links_eq_flatMap (hids : (blocks.map (·.id)).Nodup) :
    (References.ofBlocks blocks (Tables.ofBlocks blocks settings)).links = (readBlocks settings blocks).flatMap fun b =>
      (b.jumps.filterMap (link? (Tables.ofBlocks blocks settings).labels b.id)).eraseDupsBy
        fun l m => (l.source, l.target) == (m.source, m.target) := by
  have hsource : ∀ b : Block, ∀ l ∈ b.jumps.filterMap (link? (Tables.ofBlocks blocks settings).labels b.id),
      l.source = b.id := by
    intro b l hl
    obtain ⟨j, hj, hl⟩ := List.mem_filterMap.1 hl
    exact ((link?_eq_some_iff hj).1 hl).2.1
  rw [links_ofBlocks hids, eraseDupsBy_flatMap fun l : Link => (l.source, l.target)]
  -- Links of two blocks differ in their sources, so that the first of their ends is found block by block.
  refine (List.pairwise_map.1 (nodup_readBlocks settings hids)).imp fun {b c} hne l hl m hm hends => hne ?_
  rw [← hsource b l hl, ← hsource c m hm, (Prod.mk.inj hends).1]

variable (hperm : blocks.Perm blocks') (hids : (blocks.map (·.id)).Nodup)
include hperm hids

theorem agree_of_perm (htables : (Tables.ofBlocks blocks settings).Agree (Tables.ofBlocks blocks' settings)) :
    (ofBlocks blocks (Tables.ofBlocks blocks settings)).Agree
      (ofBlocks blocks' (Tables.ofBlocks blocks' settings)) := by
  have hread := readBlocks_perm hperm settings
  have hids' := nodup_ids_of_perm hperm hids
  refine { jumps := .of_perm ?_, links := ?_, invalid := .of_perm ?_ }
  · rw [entries_jumps_ofBlocks settings hids, entries_jumps_ofBlocks settings hids']
    exact hread.map _
  · rw [links_eq_flatMap hids, links_eq_flatMap hids', link?_congr htables.labels]
    exact hread.flatMap_right _
  · rw [entries_invalid_ofBlocks hids, entries_invalid_ofBlocks hids', invalidOf?_congr htables.labels]
    exact hread.filterMap _

end OfBlocks
end References

/-! ## Roles -/

theorem idsWhere_agree {blocks blocks' : List Block} (hperm : blocks.Perm blocks') {p q : Block → Bool}
    (hpq : ∀ b, p b = q b) : (idsWhere p blocks).Agree (idsWhere q blocks') := by
  intro id
  simp only [mem_idsWhere, hperm.mem_iff, hpq]

namespace Roles

section Passes
variable {t t' : Tables} {r r' : References} (ht : t.Agree t') (hr : r.Agree r')
  (settings : AnalysisSettings) (b : Block)

include hr in
theorem isRoot_congr : isRoot r b = isRoot r' b := by
  rw [isRoot, isRoot, hr.links.any_eq]

include hr in
theorem isLeaf_congr : isLeaf r b = isLeaf r' b := by
  rw [isLeaf, isLeaf, hr.jumps.getD]

include ht in
theorem partOf_congr : partOf t settings b = partOf t' settings b := by
  rw [partOf, partOf, ht.labels.values_perm.any_eq, ht.screens.values_perm.any_eq, ht.firstLabels.contains]

include ht hr

theorem isBranching_congr : isBranching t r b = isBranching t' r' b := by
  have htargets : ∀ js, targetBlocks t js = targetBlocks t' js := by
    intro js
    unfold targetBlocks
    simp only [ht.labels _]
  rw [isBranching, isBranching, hr.jumps.getD, htargets, ht.hasScanned]

theorem tagsOf_congr : tagsOf t r b = tagsOf t' r' b := by
  have hcontains : t.characters.contains = t'.characters.contains := funext ht.characters.contains
  rw [tagsOf, tagsOf, hr.jumps.getD, hcontains, ht.hasScanned]

end Passes

theorem agree_of_perm {blocks blocks' : List Block} (hperm : blocks.Perm blocks') (hids : (blocks.map (·.id)).Nodup)
    {t t' : Tables} {r r' : References} (ht : t.Agree t') (hr : r.Agree r') (settings : AnalysisSettings) :
    (ofBlocks blocks t r settings).Agree (ofBlocks blocks' t' r' settings) := by
  have hpart : ∀ part b, decide (partOf t settings b = part) = decide (partOf t' settings b = part) := by
    intro part b
    rw [partOf_congr ht]
  rw [ofBlocks_eq, ofBlocks_eq]
  refine { roots := idsWhere_agree hperm (isRoot_congr hr), leaves := idsWhere_agree hperm (isLeaf_congr hr),
           branching := idsWhere_agree hperm (isBranching_congr ht hr), story := idsWhere_agree hperm (hpart _),
           screenOnly := idsWhere_agree hperm (hpart _), config := idsWhere_agree hperm (hpart _),
           tags := .of_perm ?_ }
  rw [entries_tags t r hids, entries_tags t' r' (nodup_ids_of_perm hperm hids)]
  simp only [tagsOf_congr ht hr]
  exact hperm.filterMap _

end Roles

/-! ## Usage -/

namespace Usage

theorem spokenIn_congr {t t' : Tables} (h : t.Agree t') : spokenIn t = spokenIn t' := by
  have hcontains : t.characters.contains = t'.characters.contains := funext h.characters.contains
  funext b
  unfold spokenIn speakerOf
  rw [hcontains]

theorem agree_of_perm {blocks blocks' : List Block} {settings : AnalysisSettings} (hperm : blocks.Perm blocks')
    (hids : (blocks.map (·.id)).Nodup)
    (htables : (Tables.ofBlocks blocks settings).Agree (Tables.ofBlocks blocks' settings)) :
    (ofBlocks blocks (Tables.ofBlocks blocks settings)).Agree
      (ofBlocks blocks' (Tables.ofBlocks blocks' settings)) := by
  have hread := readBlocks_perm hperm settings
  have hids' := nodup_ids_of_perm hperm hids
  refine { spoken := fun tag => ?_, dialogue := .of_perm ?_, uses := fun name => ?_ }
  · rw [get?_spoken_ofBlocks settings hids, get?_spoken_ofBlocks settings hids', htables.characters tag,
      spokenIn_congr htables,
      (hread.flatMap_right _).countP_eq]
  · rw [entries_dialogue_ofBlocks settings hids, entries_dialogue_ofBlocks settings hids', spokenIn_congr htables]
    exact hread.filterMap _
  · rw [get?_uses_ofBlocks settings hids, get?_uses_ofBlocks settings hids', htables.vars name]
    cases (Tables.ofBlocks blocks' settings).vars.get? name with
    | none => exact .none
    | some v => exact .some (hread.flatMap_right _)

end Usage

/-! ## The analysis -/

/-- Analyses of blocks in two orders agree if no name is defined twice. -/
theorem Analysis.agree_of_perm {blocks blocks' : List Block} {settings : AnalysisSettings} (hperm : blocks.Perm blocks')
    (hids : (blocks.map (·.id)).Nodup) (honce : DefinesOnce (readBlocks settings blocks)) :
    (Analysis.ofBlocks blocks settings).Agree (Analysis.ofBlocks blocks' settings) := by
  have htables := Tables.agree_of_perm hperm hids honce
  have hreferences := References.agree_of_perm hperm hids htables
  exact { tables := htables, references := hreferences,
          roles := Roles.agree_of_perm hperm hids htables hreferences settings,
          usage := Usage.agree_of_perm hperm hids htables }

end Plotline
