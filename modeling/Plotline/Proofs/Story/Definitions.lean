import Plotline.Proofs.Occurrence
import Plotline.Proofs.Story.Labels

/-!
# What the blocks of a story define

* `get?_characters_ofBlocks`, `get?_screens_ofBlocks`, `get?_vars_ofBlocks`: each name has its last definition; a
  variable with the tag of a character is left out.
* `mem_images_ofBlocks`: the names of all images.
* `entries_firstLabels_ofBlocks`, `contains_firstLabels_iff`: the first plain label of each block that has one.
-/

namespace Plotline
open Script

section Folds
variable (bs : List Block) (t : Tables)

theorem characters_foldl_add : (bs.foldl (fun t b => t.add b.facts) t).characters =
    (bs.flatMap (·.facts.characters)).foldl (fun cs c => cs.insert c.tag c) t.characters := by
  rw [List.foldl_flatMap]
  exact (List.foldl_hom Tables.characters fun _ _ => rfl).symm

theorem screens_foldl_add : (bs.foldl (fun t b => t.add b.facts) t).screens =
    (bs.flatMap (·.facts.screens)).foldl (fun ss s => ss.insert s.name s) t.screens := by
  rw [List.foldl_flatMap]
  exact (List.foldl_hom Tables.screens fun _ _ => rfl).symm

theorem vars_foldl_add : (bs.foldl (fun t b => t.add b.facts) t).vars =
    (bs.flatMap (·.facts.vars)).foldl (fun vs v => vs.insert v.name v) t.vars := by
  rw [List.foldl_flatMap]
  exact (List.foldl_hom Tables.vars fun _ _ => rfl).symm

theorem images_foldl_add : (bs.foldl (fun t b => t.add b.facts) t).images =
    t.images.insertAll (bs.flatMap (·.facts.images)) := by
  unfold NameSet.insertAll
  rw [List.foldl_flatMap]
  exact (List.foldl_hom Tables.images fun _ _ => rfl).symm

/-- Enters the first plain label of a block, if it has one. -/
def enterFirst (firsts : Table String String) (b : Block) : Table String String :=
  match b.facts.firstLabel with
  | some l => firsts.insert b.id l
  | none => firsts

theorem firstLabels_foldl_add : (bs.foldl (fun t b => t.add b.facts) t).firstLabels =
    bs.foldl enterFirst t.firstLabels :=
  (List.foldl_hom Tables.firstLabels fun _ _ => rfl).symm

end Folds

section OfBlocks
variable (blocks : List Block) (settings : AnalysisSettings)

theorem get?_characters_ofBlocks (tag : String) : (Tables.ofBlocks blocks settings).characters.get? tag =
    ((readBlocks settings blocks).flatMap (·.facts.characters)).reverse.find? (·.tag = tag) := by
  have hcharacters := characters_foldl_add (readBlocks settings blocks) {}
  show (List.foldl _ ({} : Tables) (readBlocks settings blocks)).characters.get? tag = _
  rw [hcharacters, Table.get?_foldl_insert Character.tag]
  exact Option.or_none

/-- A screen is defined by the last definition of its name. -/
theorem get?_screens_ofBlocks (name : String) : (Tables.ofBlocks blocks settings).screens.get? name =
    ((readBlocks settings blocks).flatMap (·.facts.screens)).reverse.find? (·.name = name) := by
  have hscreens := screens_foldl_add (readBlocks settings blocks) {}
  show (List.foldl _ ({} : Tables) (readBlocks settings blocks)).screens.get? name = _
  rw [hscreens, Table.get?_foldl_insert Screen.name]
  exact Option.or_none

/-- A variable is defined by the last definition of its name, unless its name is the tag of a character. -/
theorem get?_vars_ofBlocks (name : String) : (Tables.ofBlocks blocks settings).vars.get? name =
    (((readBlocks settings blocks).flatMap (·.facts.vars)).reverse.find? (·.name = name)).filter
      fun _ => !(Tables.ofBlocks blocks settings).characters.contains name := by
  have hvars := vars_foldl_add (readBlocks settings blocks) {}
  show ((List.foldl _ ({} : Tables) (readBlocks settings blocks)).vars.filter _).get? name = _
  rw [hvars, Table.get?_filter, Table.get?_foldl_insert Variable.name]
  exact congrArg (Option.filter _) Option.or_none

theorem mem_images_ofBlocks {name : String} : name ∈ (Tables.ofBlocks blocks settings).images.members ↔
    ∃ b ∈ readBlocks settings blocks, name ∈ b.facts.images := by
  have himages := images_foldl_add (readBlocks settings blocks) {}
  show name ∈ (List.foldl _ ({} : Tables) (readBlocks settings blocks)).images.members ↔ _
  rw [himages]
  show name ∈ (NameSet.ofList _).members ↔ _
  rw [NameSet.members_ofList, List.mem_eraseDups, List.mem_flatMap]

theorem name_of_get?_vars {name : String} {v : Variable}
    (h : (Tables.ofBlocks blocks settings).vars.get? name = some v) : v.name = name := by
  rw [get?_vars_ofBlocks, Option.filter_eq_some_iff] at h
  simpa using List.find?_some h.1

theorem block_of_mem_screens {b : Block} {s : Screen} (h : s ∈ b.facts.screens) : s.block = b.id := by
  obtain ⟨l, -, hs⟩ := List.mem_filterMap.1 h
  obtain ⟨header, -, rfl⟩ := Option.map_eq_some_iff.1 hs
  rfl

variable {blocks}

theorem entries_firstLabels_ofBlocks (hids : (blocks.map (·.id)).Nodup) :
    (Tables.ofBlocks blocks settings).firstLabels.entries =
      (readBlocks settings blocks).filterMap fun b => b.facts.firstLabel.map fun l => (b.id, l) := by
  have hfirsts := firstLabels_foldl_add (readBlocks settings blocks) {}
  show (List.foldl _ ({} : Tables) (readBlocks settings blocks)).firstLabels.entries = _
  rw [hfirsts, Table.foldl_step_entries (fun b : Block => b.id) (·.facts.firstLabel)]
  · rfl
  · intro firsts b hb
    unfold enterFirst
    cases b.facts.firstLabel with
    | none => exact (List.append_nil _).symm
    | some l => exact Table.entries_insert hb
  · exact nodup_readBlocks settings hids

variable {settings}

theorem contains_firstLabels_iff (hids : (blocks.map (·.id)).Nodup) {b : Block} (hb : b ∈ readBlocks settings blocks) :
    (Tables.ofBlocks blocks settings).firstLabels.contains b.id = true ↔ b.plainLabels ≠ [] := by
  rw [Table.contains, Table.get?_of_entries (entries_firstLabels_ofBlocks settings hids)
    (nodup_readBlocks settings hids) hb,
    Block.firstLabel_eq]
  cases b.plainLabels <;> simp

end OfBlocks
end Plotline
