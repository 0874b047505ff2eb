import Mathlib.Data.List.Induction
import Plotline.Proofs.Story.Headers
import Plotline.Proofs.Tables
import Plotline.Story.Analysis

/-!
# The labels and jumps of a story

* `readBlocks`: the blocks that are not ignored.
* `labels_ofBlocks`, `scanned_ofBlocks`: the labels of a story are registered block by block.
* `entries_foldl_register`: labels of new and different names enter the table one after another.
* `get?_foldl_register`: a name has its last plain label, else its last named menu.
* `jumps_ofBlocks`: each block that is read has its own jumps in the table of jumps.
-/

namespace Plotline

def readBlocks (settings : AnalysisSettings) (blocks : List Block) : List Block :=
  blocks.filter fun b => !settings.ignores b.path

theorem mem_readBlocks_iff {settings : AnalysisSettings} {blocks : List Block} {b : Block} :
    b ∈ readBlocks settings blocks ↔ b ∈ blocks ∧ settings.ignores b.path = false := by
  unfold readBlocks
  rw [List.mem_filter, Bool.not_eq_true']

/-! ## Labels -/

theorem labels_foldl_add : ∀ (bs : List Block) (t : Tables),
    (bs.foldl (fun t b => t.add b.facts) t).labels = (bs.flatMap (·.facts.labels)).foldl register t.labels
  | [], _ => rfl
  | b :: bs, t => by
    rw [List.foldl_cons, labels_foldl_add bs, List.flatMap_cons, List.foldl_append]
    rfl

theorem scanned_foldl_add : ∀ (bs : List Block) (t : Tables),
    (bs.foldl (fun t b => t.add b.facts) t).scanned = t.scanned ++ bs.map (·.id)
  | [], t => (List.append_nil t.scanned).symm
  | b :: bs, t => by
    have hstep : (t.add b.facts).scanned = t.scanned ++ [b.id] := rfl
    rw [List.foldl_cons, scanned_foldl_add bs, hstep, List.append_assoc]
    rfl

theorem labels_ofBlocks (blocks : List Block) (settings : AnalysisSettings) :
    (Tables.ofBlocks blocks settings).labels =
      ((readBlocks settings blocks).flatMap (·.facts.labels)).foldl register ∅ := labels_foldl_add _ _

theorem scanned_ofBlocks (blocks : List Block) (settings : AnalysisSettings) :
    (Tables.ofBlocks blocks settings).scanned = (readBlocks settings blocks).map (·.id) :=
  (scanned_foldl_add _ _).trans (List.nil_append _)

theorem register_of_notMem {labels : Table String LabelSite} {s : LabelSite} (h : s.label ∉ labels.keys) :
    register labels s = labels.insert s.label s := by
  have hnone := Table.get?_eq_none_iff.2 h
  unfold register
  rw [hnone]
  simp

/-- Labels of new and different names enter the table one after another. -/
theorem entries_foldl_register : ∀ (sites : List LabelSite) (labels : Table String LabelSite),
    (labels.keys ++ sites.map (·.label)).Nodup →
    (sites.foldl register labels).entries = labels.entries ++ sites.map fun s => (s.label, s)
  | [], labels, _ => by simp
  | s :: sites, labels, h => by
    have hs : s.label ∉ labels.keys := by
      intro hmem
      exact (List.nodup_append.1 h).2.2 s.label hmem s.label (by simp) rfl
    have hkeys : (labels.insert s.label s).keys = labels.keys ++ [s.label] := Table.keys_insert_of_notMem hs
    rw [List.foldl_cons, register_of_notMem hs, entries_foldl_register sites _ (by simpa [hkeys] using h),
      Table.entries_insert hs]
    simp

/-- If every name heads one label or menu, the table of labels lists all of them. -/
theorem entries_labels_ofBlocks {blocks : List Block} {settings : AnalysisSettings}
    (hnames : ((readBlocks settings blocks).flatMap fun b => b.facts.labels.map (·.label)).Nodup) :
    (Tables.ofBlocks blocks settings).labels.entries =
      ((readBlocks settings blocks).flatMap (·.facts.labels)).map fun s => (s.label, s) := by
  rw [labels_ofBlocks, entries_foldl_register]
  · rfl
  · rw [List.map_flatMap]
    exact hnames

/-! ## Which site a name has -/

/-- The site that a name has in the end: its last plain label, else its last named menu. -/
def lastSite? (sites : List LabelSite) (name : String) : Option LabelSite :=
  (sites.reverse.find? fun s => s.label = name && s.kind = .label).or (sites.reverse.find? (·.label = name))

theorem get?_register (labels : Table String LabelSite) (s : LabelSite) (name : String) :
    (register labels s).get? name =
      if s.label = name && (s.kind = .label || !(labels.get? name).any (·.kind = .label)) then some s
      else labels.get? name := by
  unfold register
  by_cases hname : s.label = name
  · subst hname
    cases s.kind <;> cases hany : (labels.get? s.label).any (·.kind = .label) <;> simp [Table.get?_insert]
  · split <;> simp [Table.get?_insert, hname]

theorem any_lastSite? (sites : List LabelSite) (name : String) : (lastSite? sites name).any (·.kind = .label) =
    (sites.reverse.find? fun s => s.label = name && s.kind = .label).isSome := by
  unfold lastSite?
  cases hplain : sites.reverse.find? fun s => s.label = name && s.kind = .label with
  | some t =>
      have ht := List.find?_some hplain
      simp_all
  | none =>
      rw [Option.none_or, Option.isSome_none, Option.any_eq_false]
      intro t ht
      have hname := List.find?_some ht
      have hnone := List.find?_eq_none.1 hplain t (List.mem_of_find?_eq_some ht)
      simp_all

/-- Registering sites one by one leaves each name with its last plain label, else its last named menu. -/
theorem get?_foldl_register (sites : List LabelSite) (name : String) :
    (sites.foldl register ∅).get? name = lastSite? sites name := by
  induction sites using List.reverseRecOn with
  | nil => rfl
  | append_singleton sites s ih =>
      rw [List.foldl_append, List.foldl_cons, List.foldl_nil, get?_register, ih, any_lastSite?]
      unfold lastSite?
      rw [List.reverse_concat, List.find?_cons, List.find?_cons]
      by_cases hname : s.label = name
      · cases s.kind <;>
          cases sites.reverse.find? (fun s => s.label = name && s.kind = .label) <;> simp [hname]
      · simp [hname]

theorem mem_of_lastSite? {sites : List LabelSite} {name : String} {s : LabelSite}
    (h : lastSite? sites name = some s) : s ∈ sites ∧ s.label = name := by
  rcases Option.or_eq_some_iff.1 h with h | ⟨-, h⟩
  · have hs := List.find?_some h
    simp only [Bool.and_eq_true, decide_eq_true_eq] at hs
    exact ⟨List.mem_reverse.1 (List.mem_of_find?_eq_some h), hs.1⟩
  · exact ⟨List.mem_reverse.1 (List.mem_of_find?_eq_some h), by simpa using List.find?_some h⟩

theorem lastSite?_of_only {sites : List LabelSite} {s : LabelSite} (hs : s ∈ sites) (hkind : s.kind = .label)
    (honly : ∀ t ∈ sites, t.kind = .label → t.label = s.label → t = s) : lastSite? sites s.label = some s := by
  have hfind : sites.reverse.find? (fun t => t.label = s.label && t.kind = .label) = some s := by
    obtain ⟨t, ht⟩ := Option.isSome_iff_exists.1
      (List.find?_isSome.2 ⟨s, List.mem_reverse.2 hs, by simp [hkind]⟩ :
        (sites.reverse.find? fun t => t.label = s.label && t.kind = .label).isSome = true)
    have hp := List.find?_some ht
    simp only [Bool.and_eq_true, decide_eq_true_eq] at hp
    rw [ht, honly t (List.mem_reverse.1 (List.mem_of_find?_eq_some ht)) hp.2 hp.1]
  rw [lastSite?, hfind, Option.some_or]

theorem get?_labels_ofBlocks (blocks : List Block) (settings : AnalysisSettings) (name : String) :
    (Tables.ofBlocks blocks settings).labels.get? name =
      lastSite? ((readBlocks settings blocks).flatMap (·.facts.labels)) name := by
  rw [labels_ofBlocks, get?_foldl_register]

theorem mem_of_get?_labels {blocks : List Block} {settings : AnalysisSettings} {name : String} {s : LabelSite}
    (h : (Tables.ofBlocks blocks settings).labels.get? name = some s) :
    s.label = name ∧ ∃ b ∈ readBlocks settings blocks, s ∈ b.facts.labels := by
  rw [get?_labels_ofBlocks] at h
  obtain ⟨hmem, hname⟩ := mem_of_lastSite? h
  exact ⟨hname, List.mem_flatMap.1 hmem⟩

/-- The table keeps a plain label that is the only one of its name. -/
theorem get?_label_of_only {blocks : List Block} {settings : AnalysisSettings} {b : Block} {s : LabelSite}
    (hb : b ∈ readBlocks settings blocks) (hs : s ∈ b.plainLabels)
    (honly : ∀ c ∈ readBlocks settings blocks, ∀ t ∈ c.plainLabels, t.label = s.label → t = s) :
    (Tables.ofBlocks blocks settings).labels.get? s.label = some s := by
  obtain ⟨hmem, hkind⟩ := Block.mem_plainLabels.1 hs
  rw [get?_labels_ofBlocks]
  refine lastSite?_of_only (List.mem_flatMap.2 ⟨b, hb, hmem⟩) hkind fun t ht hplain hlabel => ?_
  obtain ⟨c, hc, ht⟩ := List.mem_flatMap.1 ht
  exact honly c hc t (Block.mem_plainLabels.2 ⟨ht, hplain⟩) hlabel

/-! ## Jumps -/

theorem jumps_follow (labels : Table String LabelSite) (block : String) (r : References) (j : Jump) :
    (References.follow labels block r j).jumps = r.jumps := by
  unfold References.follow
  split
  · rfl
  · split
    · rfl
    · split <;> rfl

theorem jumps_foldl_follow (labels : Table String LabelSite) (block : String) : ∀ (js : List Jump) (r : References),
    (js.foldl (References.follow labels block) r).jumps = r.jumps
  | [], _ => rfl
  | j :: js, r => by
    rw [List.foldl_cons, jumps_foldl_follow labels block js, jumps_follow]

theorem jumps_foldl_addBlock (labels : Table String LabelSite) : ∀ (bs : List Block) (r : References),
    (bs.foldl (References.addBlock labels) r).jumps = bs.foldl (fun js b => js.insert b.id b.jumps) r.jumps
  | [], _ => rfl
  | b :: bs, r => by
    have hstep : (References.addBlock labels r b).jumps = r.jumps.insert b.id b.jumps := jumps_foldl_follow _ _ _ _
    rw [List.foldl_cons, jumps_foldl_addBlock labels bs, hstep, List.foldl_cons]

/-- A block is read if and only if it is not ignored. -/
theorem hasScanned_eq {blocks : List Block} (hids : (blocks.map (·.id)).Nodup) (settings : AnalysisSettings) {b : Block}
    (hb : b ∈ blocks) : (Tables.ofBlocks blocks settings).hasScanned b.id = !settings.ignores b.path := by
  rw [Bool.eq_iff_iff, Tables.hasScanned, scanned_ofBlocks, List.contains_iff_mem, List.mem_map]
  constructor
  · rintro ⟨c, hc, hid⟩
    obtain ⟨hmem, hread⟩ := List.mem_filter.1 hc
    rwa [List.inj_on_of_nodup_map hids hmem hb hid] at hread
  · intro h
    exact ⟨b, List.mem_filter.2 ⟨hb, h⟩, rfl⟩

theorem filter_hasScanned {blocks : List Block} (hids : (blocks.map (·.id)).Nodup) (settings : AnalysisSettings) :
    blocks.filter (fun b => (Tables.ofBlocks blocks settings).hasScanned b.id) = readBlocks settings blocks :=
  List.filter_congr fun _ hb => hasScanned_eq hids settings hb

theorem unread_of_ignored {blocks : List Block} (hids : (blocks.map (·.id)).Nodup) {settings : AnalysisSettings}
    {b : Block} (hb : b ∈ blocks) (hignored : settings.ignores b.path = true) :
    b.id ∉ (readBlocks settings blocks).map (·.id) := by
  have hscanned := hasScanned_eq hids settings hb
  rw [hignored, Tables.hasScanned, scanned_ofBlocks] at hscanned
  simpa using hscanned

/-- Where jumps lead is found out from the blocks that are not ignored. -/
theorem References.ofBlocks_eq {blocks : List Block} (settings : AnalysisSettings) (hids : (blocks.map (·.id)).Nodup) :
    References.ofBlocks blocks (Tables.ofBlocks blocks settings) =
      (readBlocks settings blocks).foldl (References.addBlock (Tables.ofBlocks blocks settings).labels) {} := by
  unfold References.ofBlocks
  rw [filter_hasScanned hids]

theorem nodup_readBlocks {blocks : List Block} (settings : AnalysisSettings) (hids : (blocks.map (·.id)).Nodup) :
    ((readBlocks settings blocks).map (·.id)).Nodup := hids.sublist (List.filter_sublist.map _)

theorem entries_jumps_ofBlocks {blocks : List Block} (settings : AnalysisSettings) (hids : (blocks.map (·.id)).Nodup) :
    (References.ofBlocks blocks (Tables.ofBlocks blocks settings)).jumps.entries =
      (readBlocks settings blocks).map fun b => (b.id, b.jumps) := by
  rw [References.ofBlocks_eq settings hids, jumps_foldl_addBlock, Table.foldl_insert_entries]
  · rfl
  · exact nodup_readBlocks settings hids

theorem jumps_ofBlocks {blocks : List Block} (hids : (blocks.map (·.id)).Nodup) {settings : AnalysisSettings}
    {b : Block} (hb : b ∈ readBlocks settings blocks) :
    (References.ofBlocks blocks (Tables.ofBlocks blocks settings)).jumps.getD b.id [] = b.jumps := by
  have hget : (References.ofBlocks blocks (Tables.ofBlocks blocks settings)).jumps.get? b.id = some b.jumps := by
    rw [← Table.mem_entries_iff, entries_jumps_ofBlocks settings hids]
    exact List.mem_map_of_mem hb
  rw [Table.getD, hget]
  rfl

end Plotline
