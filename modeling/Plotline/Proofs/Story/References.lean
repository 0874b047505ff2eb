import Plotline.Proofs.Occurrence
import Plotline.Proofs.Story.Labels

/-!
# Where the jumps of a story lead

* `References.links_ofBlocks`: the links are the first between their blocks among those that jumps make.
* `exists_link_iff`: one block is linked to another if and only if a jump of the first names a label of the second.
* `entries_invalid_ofBlocks`: each block has the targets that are not there, each once, in order of first occurrence.
* `mem_invalid_iff`: a target is invalid in a block if and only if a jump of the block names it and nothing has that
  name.
-/

namespace Plotline
open Script

namespace References
variable (labels : Table String LabelSite)

def link? (block : String) (j : Jump) : Option Link :=
  if j.dynamic then none
  else (labels.get? j.target).bind fun site =>
    if site.block = block then none else some ⟨block, site.block, j.target⟩

def Misses (j : Jump) : Prop := j.dynamic = false ∧ labels.get? j.target = none

/-! ## Links -/

theorem linkTable_follow (block : String) (r : References) (j : Jump) : (follow labels block r j).linkTable =
    ((link? labels block j).toList).foldl (fun t l => t.insertNew (l.source, l.target) l) r.linkTable := by
  unfold follow link?
  cases j.dynamic with
  | true => rfl
  | false =>
      cases labels.get? j.target with
      | none => rfl
      | some site =>
          by_cases hblock : site.block = block
          · simp [hblock]
          · simp [hblock]

theorem linkTable_foldl_follow (block : String) : ∀ (js : List Jump) (r : References),
    (js.foldl (follow labels block) r).linkTable =
      (js.filterMap (link? labels block)).foldl (fun t l => t.insertNew (l.source, l.target) l) r.linkTable
  | [], _ => rfl
  | j :: js, r => by
    rw [List.foldl_cons, linkTable_foldl_follow block js, linkTable_follow, List.filterMap_cons]
    cases link? labels block j <;> rfl

theorem linkTable_foldl_addBlock : ∀ (bs : List Block) (r : References),
    (bs.foldl (addBlock labels) r).linkTable =
      (bs.flatMap fun b => b.jumps.filterMap (link? labels b.id)).foldl
        (fun t l => t.insertNew (l.source, l.target) l) r.linkTable
  | [], _ => rfl
  | b :: bs, r => by
    have hstep : (addBlock labels r b).linkTable = (b.jumps.filterMap (link? labels b.id)).foldl
        (fun t l => t.insertNew (l.source, l.target) l) r.linkTable := linkTable_foldl_follow _ _ _ _
    rw [List.foldl_cons, linkTable_foldl_addBlock bs, hstep, List.flatMap_cons, List.foldl_append]

/-! ## Invalid targets -/

instance (j : Jump) : Decidable (Misses labels j) := inferInstanceAs (Decidable (_ ∧ _))

/-- The targets of jumps that name something that is not there, in order. -/
def missed (js : List Jump) : List String := (js.filter (Misses labels ·)).map (·.target)

/-- The targets of a block that are not there, each once, if there are some. -/
def invalidOf? (b : Block) : Option (List String) :=
  if missed labels b.jumps = [] then none else some (missed labels b.jumps).eraseDups

theorem invalid_follow (block : String) (r : References) (j : Jump) : (follow labels block r j).invalid =
    if Misses labels j then
      r.invalid.update block [] fun known => if known.contains j.target then known else known ++ [j.target]
    else r.invalid := by
  unfold follow
  by_cases hmisses : Misses labels j
  · rw [if_pos hmisses, hmisses.1, hmisses.2]
    rfl
  · rw [if_neg hmisses]
    split
    · rfl
    · rename_i hstatic
      split
      · rename_i hnone
        exact absurd ⟨by simpa using hstatic, hnone⟩ hmisses
      · split <;> rfl

theorem missed_cons (j : Jump) (js : List Jump) :
    missed labels (j :: js) = if Misses labels j then j.target :: missed labels js else missed labels js := by
  unfold missed
  rw [List.filter_cons]
  by_cases hmisses : Misses labels j <;> simp [hmisses]

theorem invalid_foldl_follow (block : String) : ∀ (js : List Jump) (r : References),
    (js.foldl (follow labels block) r).invalid = (missed labels js).foldl
      (fun t x => t.update block [] fun known => if known.contains x then known else known ++ [x]) r.invalid
  | [], _ => rfl
  | j :: js, r => by
    rw [List.foldl_cons, invalid_foldl_follow block js, invalid_follow, missed_cons]
    split <;> rfl

theorem entries_invalid_addBlock (t : Table String (List String)) (b : Block) (hb : b.id ∉ t.keys) :
    ((missed labels b.jumps).foldl
      (fun t x => t.update b.id [] fun known => if known.contains x then known else known ++ [x]) t).entries =
      t.entries ++ ((invalidOf? labels b).map fun xs => (b.id, xs)).toList := by
  rw [Table.entries_foldl_update_new hb [] fun known x => if known.contains x then known else known ++ [x],
    foldl_addNew]
  simp [invalidOf?]

theorem entries_invalid_foldl_addBlock (bs : List Block) (hids : (bs.map (·.id)).Nodup) :
    (bs.foldl (addBlock labels) {}).invalid.entries =
      bs.filterMap fun b => (invalidOf? labels b).map fun xs => (b.id, xs) := by
  have hinvalid : (bs.foldl (addBlock labels) {}).invalid = bs.foldl (fun t b => (missed labels b.jumps).foldl
      (fun t x => t.update b.id [] fun known => if known.contains x then known else known ++ [x]) t) ∅ :=
    (List.foldl_hom References.invalid fun r b =>
      (invalid_foldl_follow labels b.id b.jumps { r with jumps := r.jumps.insert b.id b.jumps }).symm).symm
  rw [hinvalid, Table.foldl_step_entries (fun b : Block => b.id) (invalidOf? labels) (entries_invalid_addBlock labels)]
  · rfl
  · exact hids

end References

/-! ## The references of a story -/

section OfBlocks
variable {blocks : List Block} {settings : AnalysisSettings}

theorem References.links_ofBlocks (hids : (blocks.map (·.id)).Nodup) :
    (References.ofBlocks blocks (Tables.ofBlocks blocks settings)).links =
      ((readBlocks settings blocks).flatMap fun b =>
        b.jumps.filterMap (link? (Tables.ofBlocks blocks settings).labels b.id)).eraseDupsBy
          fun l m => (l.source, l.target) == (m.source, m.target) := by
  rw [References.links, ofBlocks_eq settings hids, linkTable_foldl_addBlock]
  exact Table.values_foldl_insertNew_empty (fun l : Link => (l.source, l.target)) _

theorem References.nodup_ends_ofBlocks (hids : (blocks.map (·.id)).Nodup) :
    ((References.ofBlocks blocks (Tables.ofBlocks blocks settings)).links.map fun k => (k.source, k.target)).Nodup := by
  rw [References.links_ofBlocks hids]
  exact nodup_map_eraseDupsBy (fun k : Link => (k.source, k.target)) _

/-- A jump of one block to a label of another. -/
structure Enters (labels : Table String LabelSite) (b : Block) (target : String) (j : Jump) : Prop where
  mem : j ∈ b.jumps
  static : j.dynamic = false
  resolved : ∃ site, labels.get? j.target = some site ∧ site.block = target
  leaves : target ≠ b.id

theorem link?_eq_some_iff {labels : Table String LabelSite} {b : Block} {j : Jump} (hj : j ∈ b.jumps) {k : Link} :
    References.link? labels b.id j = some k ↔ Enters labels b k.target j ∧ k.source = b.id ∧ k.label = j.target := by
  unfold References.link?
  constructor
  · intro hk
    split at hk
    · cases hk
    · rename_i hstatic
      obtain ⟨site, hsite, hk⟩ := Option.bind_eq_some_iff.1 hk
      split at hk
      · cases hk
      · rename_i hblock
        obtain rfl := Option.some.inj hk
        exact ⟨⟨hj, by simpa using hstatic, ⟨site, hsite, rfl⟩, hblock⟩, rfl, rfl⟩
  · rcases k with ⟨source, target, label⟩
    rintro ⟨⟨-, hstatic, ⟨site, hsite, hblock⟩, hleaves⟩, hsource, hlabel⟩
    obtain rfl : source = b.id := hsource
    obtain rfl : label = j.target := hlabel
    obtain rfl : site.block = target := hblock
    rw [hstatic, hsite]
    simp [hleaves]

/-- One block is linked to another if and only if a jump of the first names a label of the second. -/
theorem exists_link_iff (hids : (blocks.map (·.id)).Nodup) {source target : String} :
    (∃ k ∈ (References.ofBlocks blocks (Tables.ofBlocks blocks settings)).links,
        k.source = source ∧ k.target = target) ↔
      ∃ b ∈ readBlocks settings blocks, b.id = source ∧
        ∃ j, Enters (Tables.ofBlocks blocks settings).labels b target j := by
  rw [References.links_ofBlocks hids]
  constructor
  · rintro ⟨k, hk, hsource, rfl⟩
    obtain ⟨b, hb, hk⟩ := List.mem_flatMap.1 ((eraseDupsBy_sublist _ _).subset hk)
    obtain ⟨j, hj, hk⟩ := List.mem_filterMap.1 hk
    obtain ⟨henters, hsource', -⟩ := (link?_eq_some_iff hj).1 hk
    exact ⟨b, hb, hsource'.symm.trans hsource, j, henters⟩
  · rintro ⟨b, hb, rfl, j, henters⟩
    have hmade : References.link? (Tables.ofBlocks blocks settings).labels b.id j = some ⟨b.id, target, j.target⟩ :=
      (link?_eq_some_iff henters.mem).2 ⟨henters, rfl, rfl⟩
    have hproposed : ⟨b.id, target, j.target⟩ ∈ (readBlocks settings blocks).flatMap fun b =>
        b.jumps.filterMap (References.link? (Tables.ofBlocks blocks settings).labels b.id) :=
      List.mem_flatMap.2 ⟨b, hb, List.mem_filterMap.2 ⟨j, henters.mem, hmade⟩⟩
    obtain ⟨k, hk, hends⟩ := exists_mem_eraseDupsBy_key (fun k : Link => (k.source, k.target)) hproposed
    exact ⟨k, hk, (Prod.mk.inj hends).1, (Prod.mk.inj hends).2⟩

theorem entries_invalid_ofBlocks (hids : (blocks.map (·.id)).Nodup) :
    (References.ofBlocks blocks (Tables.ofBlocks blocks settings)).invalid.entries =
      (readBlocks settings blocks).filterMap fun b =>
        (References.invalidOf? (Tables.ofBlocks blocks settings).labels b).map fun xs => (b.id, xs) := by
  rw [References.ofBlocks_eq settings hids]
  exact References.entries_invalid_foldl_addBlock _ _ (nodup_readBlocks settings hids)

/-- A target is invalid in a block if and only if a jump of the block names it and nothing has that name. -/
theorem mem_invalid_iff (hids : (blocks.map (·.id)).Nodup) {b : Block} (hb : b ∈ readBlocks settings blocks)
    {x : String} :
    x ∈ (References.ofBlocks blocks (Tables.ofBlocks blocks settings)).invalid.getD b.id [] ↔
      ∃ j ∈ b.jumps, References.Misses (Tables.ofBlocks blocks settings).labels j ∧ j.target = x := by
  have hmissed : x ∈ References.missed (Tables.ofBlocks blocks settings).labels b.jumps ↔
      ∃ j ∈ b.jumps, References.Misses (Tables.ofBlocks blocks settings).labels j ∧ j.target = x := by
    unfold References.missed
    simp only [List.mem_map, List.mem_filter, decide_eq_true_eq, and_assoc]
  rw [← hmissed, Table.getD, Table.get?_of_entries (entries_invalid_ofBlocks hids) (nodup_readBlocks settings hids) hb,
    References.invalidOf?]
  split
  · rename_i hnil
    simp [hnil]
  · rw [Option.getD_some, List.mem_eraseDups]

end OfBlocks
end Plotline
