import Plotline.Proofs.Story.References

/-!
# What becomes of each jump

Nothing is asked of the tables here: any label table and any list of scanned ids will do.

* `Tables.scannedOf`: the blocks whose ids were scanned; `allJumps`: their jumps, from top to bottom.
* `Crosses`: a jump leads from one block to a label of another.
* `links_eq`: the links are those that the jumps make, the first between any two blocks.
* `entries_invalid_eq`: the invalid targets of each block, each once, in order of first occurrence.
* `Outcome`: a static jump misses, stays in its block or crosses into another one.
* `References.Exact`: every static jump has its outcome, and no target or link is there without a jump.
* `exact_ofBlocks`: so it is for all blocks with different ids.
-/

namespace Plotline
open Script

/-- The blocks whose ids were scanned, in order. -/
def Tables.scannedOf (t : Tables) (blocks : List Block) : List Block := blocks.filter fun b => t.hasScanned b.id

def allJumps (blocks : List Block) : List Jump := blocks.flatMap Block.jumps

/-- A static jump leads from one block to a label of another. -/
def Crosses (labels : Table String LabelSite) (source target : String) (j : Jump) : Prop :=
  j.dynamic = false ∧ j.block = source ∧ (labels.get? j.target).map (·.block) = some target ∧ target ≠ source

instance (labels : Table String LabelSite) (source target : String) (j : Jump) :
    Decidable (Crosses labels source target j) := inferInstanceAs (Decidable (_ ∧ _))

theorem block_of_mem_jumps {b : Block} {j : Jump} (hj : j ∈ b.jumps) : j.block = b.id := by
  obtain ⟨l, -, hj⟩ := List.mem_flatMap.1 hj
  obtain ⟨site, -, rfl⟩ := List.mem_map.1 hj
  rfl

namespace References
variable (labels : Table String LabelSite)

/-! ## Links -/

theorem link?_block_eq_some_iff {j : Jump} {l : Link} :
    link? labels j.block j = some l ↔ Crosses labels l.source l.target j ∧ l.label = j.target := by
  rcases l with ⟨source, target, label⟩
  unfold link? Crosses
  cases j.dynamic with
  | true => simp
  | false =>
      cases labels.get? j.target with
      | none => simp
      | some site =>
          by_cases hblock : site.block = j.block
          · simp only [Bool.false_eq_true, if_false, Option.bind_some, hblock, if_true, Option.map_some,
              Option.some.injEq, true_and, reduceCtorEq, false_iff]
            rintro ⟨⟨rfl, rfl, hne⟩, -⟩
            exact hne rfl
          · simp only [Bool.false_eq_true, if_false, Option.bind_some, hblock, Option.map_some, Option.some.injEq,
              Link.mk.injEq, true_and]
            constructor
            · rintro ⟨rfl, rfl, rfl⟩
              exact ⟨⟨rfl, rfl, hblock⟩, rfl⟩
            · rintro ⟨⟨hsource, htarget, -⟩, hlabel⟩
              exact ⟨hsource, htarget, hlabel.symm⟩

/-- A jump makes a link with the ends of a given one if and only if it leads between them. -/
theorem any_link?_block (l : Link) (j : Jump) :
    (link? labels j.block j).any (fun k => (k.source, k.target) == (l.source, l.target)) =
      decide (Crosses labels l.source l.target j) := by
  rw [Bool.eq_iff_iff, decide_eq_true_iff, Option.any_eq_true]
  constructor
  · rintro ⟨k, hk, hends⟩
    obtain ⟨hsource, htarget⟩ := Prod.mk.inj (beq_iff_eq.1 hends)
    rw [← hsource, ← htarget]
    exact ((link?_block_eq_some_iff labels).1 hk).1
  · intro hcrosses
    exact ⟨⟨l.source, l.target, j.target⟩, (link?_block_eq_some_iff labels).2 ⟨hcrosses, rfl⟩, beq_self_eq_true _⟩

variable (blocks : List Block) (t : Tables)

def made : List Link := (allJumps (t.scannedOf blocks)).filterMap fun j => link? t.labels j.block j

/-- The links are those that jumps make, the first between any two blocks. -/
theorem links_eq : (ofBlocks blocks t).links =
    (made blocks t).eraseDupsBy fun l m => (l.source, l.target) == (m.source, m.target) := by
  have hmade : made blocks t = (t.scannedOf blocks).flatMap fun b => b.jumps.filterMap (link? t.labels b.id) := by
    unfold made allJumps
    rw [List.filterMap_flatMap]
    refine List.flatMap_congr fun b _ => List.filterMap_congr fun j hj => ?_
    rw [block_of_mem_jumps hj]
  rw [hmade, links, ofBlocks, linkTable_foldl_addBlock]
  exact Table.values_foldl_insertNew_empty (fun l : Link => (l.source, l.target)) _

/-! ## Invalid targets -/

variable {blocks t}

theorem nodup_scannedOf (t : Tables) (hids : (blocks.map (·.id)).Nodup) : ((t.scannedOf blocks).map (·.id)).Nodup :=
  hids.sublist (List.filter_sublist.map _)

theorem entries_invalid_eq (hids : (blocks.map (·.id)).Nodup) : (ofBlocks blocks t).invalid.entries =
    (t.scannedOf blocks).filterMap fun b => (invalidOf? t.labels b).map fun xs => (b.id, xs) :=
  entries_invalid_foldl_addBlock t.labels _ (nodup_scannedOf t hids)

/-- The invalid targets of a scanned block, each once, in order of first occurrence. -/
theorem getD_invalid_eq (hids : (blocks.map (·.id)).Nodup) {b : Block} (hb : b ∈ t.scannedOf blocks) :
    (ofBlocks blocks t).invalid.getD b.id [] = (missed t.labels b.jumps).eraseDups := by
  rw [Table.getD, Table.get?_of_entries (entries_invalid_eq hids) (nodup_scannedOf t hids) hb, invalidOf?]
  split
  · rename_i hnil
    rw [hnil]
    rfl
  · rfl

theorem mem_missed {js : List Jump} {x : String} : x ∈ missed labels js ↔ ∃ j ∈ js, Misses labels j ∧ j.target = x := by
  unfold missed
  simp only [List.mem_map, List.mem_filter, decide_eq_true_eq, and_assoc]

theorem mem_getD_invalid_iff (hids : (blocks.map (·.id)).Nodup) {b : Block} (hb : b ∈ t.scannedOf blocks) {x : String} :
    x ∈ (ofBlocks blocks t).invalid.getD b.id [] ↔ ∃ j ∈ b.jumps, Misses t.labels j ∧ j.target = x := by
  rw [getD_invalid_eq hids hb, List.mem_eraseDups, mem_missed]

theorem exists_block_of_mem_invalid (hids : (blocks.map (·.id)).Nodup) {id x : String}
    (hx : x ∈ (ofBlocks blocks t).invalid.getD id []) : ∃ b ∈ t.scannedOf blocks, b.id = id := by
  cases hget : (ofBlocks blocks t).invalid.get? id with
  | none =>
      rw [Table.getD, hget] at hx
      cases hx
  | some xs =>
      rw [← Table.mem_entries_iff, entries_invalid_eq hids] at hget
      obtain ⟨b, hb, hentry⟩ := List.mem_filterMap.1 hget
      obtain ⟨ys, -, hentry⟩ := Option.map_eq_some_iff.1 hentry
      exact ⟨b, hb, congrArg Prod.fst hentry⟩

/-- The invalid targets of a block stand in the order of the first static jumps to them. -/
theorem pairwise_invalid (b : Block) : (missed t.labels b.jumps).eraseDups.Pairwise fun x y =>
    b.jumps.findIdx (fun j => !j.dynamic && j.target = x) < b.jumps.findIdx fun j => !j.dynamic && j.target = y := by
  have hmissed : missed t.labels b.jumps =
      b.jumps.filterMap fun j => if Misses t.labels j then some j.target else none := by
    unfold missed
    rw [← List.filterMap_eq_map, ← List.filterMap_eq_filter, List.filterMap_filterMap]
    refine List.filterMap_congr fun j _ => ?_
    by_cases hmisses : Misses t.labels j <;> simp [Option.guard, hmisses]
  have hany : ∀ x ∈ missed t.labels b.jumps,
      (fun j => (if Misses t.labels j then some j.target else none).any (· == x)) =
      fun j : Jump => !j.dynamic && decide (j.target = x) := by
    intro x hx
    obtain ⟨i, -, hi, rfl⟩ := (mem_missed t.labels).1 hx
    funext j
    by_cases htarget : j.target = i.target
    · cases hdynamic : j.dynamic <;> simp [Misses, hdynamic, htarget, hi.2]
    · by_cases hmisses : Misses t.labels j <;> simp [hmisses, htarget]
  refine (pairwise_findIdx_eraseDupsBy id (missed t.labels b.jumps)).imp_of_mem fun {x y} hx hy hlt => ?_
  have hx' : x ∈ missed t.labels b.jumps := List.mem_eraseDups.1 hx
  have hy' : y ∈ missed t.labels b.jumps := List.mem_eraseDups.1 hy
  rw [← hany x hx', ← hany y hy']
  refine findIdx_lt_of_filterMap _ (· == x) (· == y) ?_
  rw [← hmissed]
  exact hlt

end References

/-! ## Outcomes -/

/-- What becomes of a static jump of a block: one of three things, as the table of labels has no site for its target,
one in the same block or one in another. -/
inductive Outcome (t : Tables) (r : References) (b : Block) (j : Jump) : Prop
  /-- Nothing has the name: the target is listed once among the invalid ones, and no link carries it. -/
  | misses : t.labels.get? j.target = none → (r.invalid.getD b.id []).count j.target = 1 →
      (∀ l ∈ r.links, l.label ≠ j.target) → Outcome t r b j
  /-- The label lies in the same block: the jump adds nothing. -/
  | stays (site : LabelSite) : t.labels.get? j.target = some site → site.block = b.id →
      (∀ r', References.follow t.labels b.id r' j = r') → j.target ∉ r.invalid.getD b.id [] →
      (∀ l ∈ r.links, l.source = b.id → l.label ≠ j.target) → Outcome t r b j
  /-- The label lies in another block: the two blocks are linked. -/
  | crosses (site : LabelSite) : t.labels.get? j.target = some site → site.block ≠ b.id →
      (∃ l ∈ r.links, l.source = b.id ∧ l.target = site.block) → j.target ∉ r.invalid.getD b.id [] → Outcome t r b j

/-- Links and invalid targets say exactly what becomes of the static jumps of scanned blocks. -/
structure References.Exact (blocks : List Block) (t : Tables) (r : References) : Prop where
  outcome : ∀ b ∈ t.scannedOf blocks, ∀ j ∈ b.jumps, j.dynamic = false → Outcome t r b j
  dynamic : ∀ j : Jump, j.dynamic = true → ∀ block r', follow t.labels block r' j = r'
  /-- Every invalid target is that of a static jump of the block. -/
  invalid : ∀ id, ∀ x ∈ r.invalid.getD id [], ∃ b ∈ t.scannedOf blocks, b.id = id ∧
    ∃ j ∈ b.jumps, Misses t.labels j ∧ j.target = x
  /-- Invalid targets stand in the order of the first jumps to them. -/
  invalid_order : ∀ b ∈ t.scannedOf blocks, (r.invalid.getD b.id []).Pairwise fun x y =>
    b.jumps.findIdx (fun j => !j.dynamic && j.target = x) < b.jumps.findIdx fun j => !j.dynamic && j.target = y
  /-- A link carries the target of the first jump between its ends. -/
  link : ∀ l ∈ r.links, ∃ j, (allJumps (t.scannedOf blocks)).find? (Crosses t.labels l.source l.target ·) = some j ∧
    l.label = j.target
  ends : (r.links.map fun l => (l.source, l.target)).Nodup
  outside : ∀ l ∈ r.links, l.source ≠ l.target
  /-- Links stand in the order of the first jumps between their ends. -/
  link_order : r.links.Pairwise fun l m =>
    (allJumps (t.scannedOf blocks)).findIdx (Crosses t.labels l.source l.target ·) <
      (allJumps (t.scannedOf blocks)).findIdx (Crosses t.labels m.source m.target ·)
  apart : ∀ id, ∀ x ∈ r.invalid.getD id [], ∀ l ∈ r.links, l.label ≠ x

namespace References
variable {blocks : List Block} {t : Tables}

/-- A link comes from the first jump between its ends, whose target it carries. -/
theorem find?_crosses_of_mem_links {l : Link} (hl : l ∈ (ofBlocks blocks t).links) :
    ∃ j, (allJumps (t.scannedOf blocks)).find? (Crosses t.labels l.source l.target ·) = some j ∧
      l.label = j.target := by
  rw [links_eq, mem_eraseDupsBy_key fun k : Link => (k.source, k.target)] at hl
  unfold made at hl
  rw [List.find?_filterMap] at hl
  simp only [any_link?_block] at hl
  obtain ⟨j, hj, hmade⟩ := Option.bind_eq_some_iff.1 hl
  exact ⟨j, hj, ((link?_block_eq_some_iff t.labels).1 hmade).2⟩

theorem exists_link_of_crosses {j : Jump} (hj : j ∈ allJumps (t.scannedOf blocks)) {source target : String}
    (hcrosses : Crosses t.labels source target j) :
    ∃ l ∈ (ofBlocks blocks t).links, l.source = source ∧ l.target = target := by
  have hmade : ⟨source, target, j.target⟩ ∈ made blocks t :=
    List.mem_filterMap.2 ⟨j, hj, (link?_block_eq_some_iff t.labels).2 ⟨hcrosses, rfl⟩⟩
  obtain ⟨l, hl, hends⟩ := exists_mem_eraseDupsBy_key (fun k : Link => (k.source, k.target)) hmade
  rw [links_eq]
  exact ⟨l, hl, (Prod.mk.inj hends).1, (Prod.mk.inj hends).2⟩

/-- The name that a link carries has a site, in another block than the one that the link leaves. -/
theorem site_of_mem_links {l : Link} (hl : l ∈ (ofBlocks blocks t).links) :
    ∃ site, t.labels.get? l.label = some site ∧ site.block = l.target ∧ l.target ≠ l.source := by
  obtain ⟨j, hj, hlabel⟩ := find?_crosses_of_mem_links hl
  have hfound := List.find?_some hj
  obtain ⟨-, -, hsite, hne⟩ := of_decide_eq_true hfound
  obtain ⟨site, hsite, hblock⟩ := Option.map_eq_some_iff.1 hsite
  exact ⟨site, hlabel ▸ hsite, hblock, hne⟩

theorem pairwise_links : (ofBlocks blocks t).links.Pairwise fun l m =>
    (allJumps (t.scannedOf blocks)).findIdx (Crosses t.labels l.source l.target ·) <
      (allJumps (t.scannedOf blocks)).findIdx (Crosses t.labels m.source m.target ·) := by
  rw [links_eq]
  refine (pairwise_findIdx_eraseDupsBy (fun l : Link => (l.source, l.target)) (made blocks t)).imp fun {l m} hlt => ?_
  have hplaces := findIdx_lt_of_filterMap _ _ _ hlt
  simpa only [any_link?_block] using hplaces

theorem follow_of_stays {labels : Table String LabelSite} {block : String} {j : Jump} {site : LabelSite}
    (hsite : labels.get? j.target = some site) (hblock : site.block = block) (r : References) :
    follow labels block r j = r := by
  unfold follow
  rw [hsite]
  split
  · rfl
  · exact if_pos hblock

/-- A static jump of a scanned block misses, stays or crosses. -/
theorem outcome_of_mem (hids : (blocks.map (·.id)).Nodup) {b : Block} (hb : b ∈ t.scannedOf blocks) {j : Jump}
    (hj : j ∈ b.jumps) (hstatic : j.dynamic = false) : Outcome t (ofBlocks blocks t) b j := by
  cases hsite : t.labels.get? j.target with
  | none =>
      have hmem : j.target ∈ (missed t.labels b.jumps).eraseDups :=
        List.mem_eraseDups.2 ((mem_missed t.labels).2 ⟨j, hj, ⟨hstatic, hsite⟩, rfl⟩)
      refine .misses hsite ?_ fun l hl hlabel => ?_
      · rw [getD_invalid_eq hids hb]
        exact List.count_eq_one_of_mem (nodup_eraseDups _) hmem
      · obtain ⟨site, hlabel', -⟩ := site_of_mem_links hl
        rw [hlabel, hsite] at hlabel'
        cases hlabel'
  | some site =>
      have hvalid : j.target ∉ (ofBlocks blocks t).invalid.getD b.id [] := by
        intro hmem
        obtain ⟨i, -, hmisses, htarget⟩ := (mem_getD_invalid_iff hids hb).1 hmem
        rw [← htarget, hmisses.2] at hsite
        cases hsite
      by_cases hblock : site.block = b.id
      · refine .stays site hsite hblock (follow_of_stays hsite hblock) hvalid fun l hl hsource hlabel => ?_
        obtain ⟨site', hsite', hblock', hne⟩ := site_of_mem_links hl
        rw [hlabel, hsite, Option.some.injEq] at hsite'
        exact hne (by rw [← hblock', ← hsite', hblock, hsource])
      · have hall : j ∈ allJumps (t.scannedOf blocks) := List.mem_flatMap.2 ⟨b, hb, hj⟩
        have hcrosses : Crosses t.labels b.id site.block j :=
          ⟨hstatic, block_of_mem_jumps hj, by rw [hsite]; rfl, hblock⟩
        exact .crosses site hsite hblock (exists_link_of_crosses hall hcrosses) hvalid

end References

/-- **What becomes of each jump.** Whatever the table of labels and the list of scanned ids: each static jump of a
scanned block misses, stays or crosses, and every invalid target and every link comes from such a jump, in order of
first occurrence. -/
theorem exact_ofBlocks {blocks : List Block} (t : Tables) (hids : (blocks.map (·.id)).Nodup) :
    (References.ofBlocks blocks t).Exact blocks t := by
  refine { outcome := fun b hb j hj => References.outcome_of_mem hids hb hj, dynamic := fun j hj block r' => ?_,
           invalid := fun id x hx => ?_, invalid_order := fun b hb => ?_,
           link := fun l => References.find?_crosses_of_mem_links, ends := ?_, outside := fun l hl => ?_,
           link_order := References.pairwise_links, apart := fun id x hx l hl hlabel => ?_ }
  · unfold References.follow
    rw [if_pos hj]
  · obtain ⟨b, hb, rfl⟩ := References.exists_block_of_mem_invalid hids hx
    exact ⟨b, hb, rfl, (References.mem_getD_invalid_iff hids hb).1 hx⟩
  · rw [References.getD_invalid_eq hids hb]
    exact References.pairwise_invalid b
  · rw [References.links_eq]
    exact nodup_map_eraseDupsBy (fun l : Link => (l.source, l.target)) _
  · obtain ⟨-, -, -, hne⟩ := References.site_of_mem_links hl
    exact hne.symm
  · obtain ⟨b, hb, rfl⟩ := References.exists_block_of_mem_invalid hids hx
    obtain ⟨j, -, hmisses, rfl⟩ := (References.mem_getD_invalid_iff hids hb).1 hx
    obtain ⟨site, hsite, -⟩ := References.site_of_mem_links hl
    rw [hlabel, hmisses.2] at hsite
    cases hsite

/-- An inn and its cellar: jumps that miss, stay and cross, one that is computed, and one that is made twice. -/
def inn : List Block := [
  { id := "i", content := "label inn:\n call nowhere\n jump cellar\n jump inn\n jump expression exit\n jump cellar\n" },
  { id := "c", content := "label cellar:\n jump inn\n jump nowhere\n jump out\n jump nowhere\n" }]

theorem exact_ofBlocks_inn : (inn.map (·.id)).Nodup ∧
    (References.ofBlocks inn (Tables.ofBlocks inn .usual)).Exact inn (Tables.ofBlocks inn .usual) ∧
      (References.ofBlocks inn (Tables.ofBlocks inn .usual)).links = [⟨"i", "c", "cellar"⟩, ⟨"c", "i", "inn"⟩] ∧
        (References.ofBlocks inn (Tables.ofBlocks inn .usual)).invalid.getD "c" [] = ["nowhere", "out"] := by
  have hids : (inn.map (·.id)).Nodup := by decide
  exact ⟨hids, exact_ofBlocks _ hids, by decide +kernel, by decide +kernel⟩

end Plotline
