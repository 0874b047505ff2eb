import Plotline.Proofs.Occurrence
import Plotline.Proofs.Story.Labels

/-!
# What the blocks of a story are for

* `idsWhere`: the ids of the blocks that a condition holds of, as a set.
* `Roles.isRoot`, `Roles.isLeaf`, `Roles.tagsOf`: the conditions for single blocks.
* `Roles.ofBlocks_eq`: each block has its roles by itself, whatever the order of the blocks.
-/

namespace Plotline

/-! ## Sets of ids -/

/-- The ids of the blocks that a condition holds of, in the order of the blocks. -/
def idsWhere (p : Block → Bool) (blocks : List Block) : NameSet := NameSet.ofList ((blocks.filter p).map (·.id))

theorem idsWhere_concat (p : Block → Bool) (blocks : List Block) (b : Block) :
    idsWhere p (blocks ++ [b]) = Roles.insertIf (p b) (idsWhere p blocks) b.id := by
  unfold idsWhere Roles.insertIf NameSet.ofList NameSet.insertAll
  rw [List.filter_append, List.map_append, List.foldl_append]
  cases hp : p b <;> simp [hp]

theorem mem_idsWhere {p : Block → Bool} {blocks : List Block} {id : String} :
    id ∈ (idsWhere p blocks).members ↔ ∃ b ∈ blocks, p b = true ∧ b.id = id := by
  unfold idsWhere
  rw [NameSet.members_ofList, List.mem_eraseDups, List.mem_map]
  simp only [List.mem_filter, and_assoc]

theorem members_idsWhere {blocks : List Block} (hids : (blocks.map (·.id)).Nodup) (p : Block → Bool) :
    (idsWhere p blocks).members = (blocks.filter p).map (·.id) := by
  unfold idsWhere
  rw [NameSet.members_ofList, eraseDups_of_nodup]
  exact hids.sublist (List.filter_sublist.map _)

/-- A block of a story is in a set if and only if the condition holds of it. -/
theorem id_mem_idsWhere {blocks : List Block} (hids : (blocks.map (·.id)).Nodup) {b : Block} (hb : b ∈ blocks)
    {p : Block → Bool} : b.id ∈ (idsWhere p blocks).members ↔ p b = true := by
  rw [mem_idsWhere]
  constructor
  · rintro ⟨c, hc, hp, hid⟩
    rwa [List.inj_on_of_nodup_map hids hc hb hid] at hp
  · intro hp
    exact ⟨b, hb, hp, rfl⟩

/-! ## Roles of single blocks -/

namespace Roles

/-- No link leads to a block. -/
def isRoot (refs : References) (b : Block) : Bool := !refs.links.any (·.target = b.id)

/-- No jump starts in a block. -/
def isLeaf (refs : References) (b : Block) : Bool := (refs.jumps.getD b.id []).isEmpty

/-- The tags of a block; only blocks that were read have some. -/
def tagsOf (t : Tables) (refs : References) (b : Block) : List ContentTag :=
  if t.hasScanned b.id then
    contentTags b.content (!(refs.jumps.getD b.id []).isEmpty) t.characters.contains
  else []

/-- Gives a block its tags, if it has some. -/
def addTags (t : Tables) (refs : References) (tags : Table String (List ContentTag)) (b : Block) :
    Table String (List ContentTag) :=
  if (tagsOf t refs b).isEmpty then tags else tags.insert b.id (tagsOf t refs b)

theorem ofBlocks_eq (blocks : List Block) (t : Tables) (refs : References) (settings : AnalysisSettings) :
    ofBlocks blocks t refs settings =
      { roots := idsWhere (isRoot refs) blocks
        leaves := idsWhere (isLeaf refs) blocks
        branching := idsWhere (isBranching t refs) blocks
        story := idsWhere (partOf t settings · = .story) blocks
        screenOnly := idsWhere (partOf t settings · = .screenOnly) blocks
        config := idsWhere (partOf t settings · = .config) blocks
        tags := blocks.foldl (addTags t refs) ∅ } := by
  induction blocks using List.reverseRecOn with
  | nil => rfl
  | append_singleton blocks b ih =>
      have hstep : ofBlocks (blocks ++ [b]) t refs settings =
          add t refs settings (ofBlocks blocks t refs settings) b := List.foldl_append
      simp only [hstep, ih, idsWhere_concat, List.foldl_append, List.foldl_cons, List.foldl_nil]
      rfl

theorem entries_tags (t : Tables) (r : References) {blocks : List Block} (hids : (blocks.map (·.id)).Nodup) :
    (blocks.foldl (addTags t r) ∅).entries = blocks.filterMap fun b =>
      (if (tagsOf t r b).isEmpty then none else some (tagsOf t r b)).map fun tags => (b.id, tags) := by
  rw [Table.foldl_step_entries (fun b : Block => b.id)
    fun b => if (tagsOf t r b).isEmpty then none else some (tagsOf t r b)]
  · rfl
  · intro tags b hb
    unfold addTags
    cases (tagsOf t r b).isEmpty with
    | true => exact (List.append_nil _).symm
    | false => exact Table.entries_insert hb
  · exact hids

theorem getD_tags_ofBlocks {blocks : List Block} (hids : (blocks.map (·.id)).Nodup) (t : Tables) (r : References)
    (settings : AnalysisSettings) {b : Block} (hb : b ∈ blocks) :
    (ofBlocks blocks t r settings).tags.getD b.id [] = tagsOf t r b := by
  rw [ofBlocks_eq, Table.getD, Table.get?_of_entries (entries_tags t r hids) hids hb]
  split
  · rename_i hnil
    rw [List.isEmpty_iff.1 hnil]
    rfl
  · rfl

end Roles
end Plotline
