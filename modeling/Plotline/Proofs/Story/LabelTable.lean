import Plotline.Proofs.Story.Definitions

/-!
# The table of labels

Labels are registered one after another, and one that is registered may take the place of an earlier one. What the table
shows in the end is read off the sequence of all headers.

* `headers`: the plain labels and named menus of all blocks that are read, block by block and line by line.
* `keys_register`: a header makes its name known, also where it is passed over.
* `Wins`: the header that a name has in the end; `lastSite?_eq_some_iff` finds it.
* `get?_firstLabels_iff`: the first plain label of a block, read off its own text.
* `label_table_of_headers`: the table of labels and that of first labels, from the headers.
-/

namespace Plotline

/-- The plain labels and named menus of the blocks that are read, in the order of the blocks and of their lines. -/
def headers (settings : AnalysisSettings) (blocks : List Block) : List LabelSite :=
  (readBlocks settings blocks).flatMap fun b => b.numberedLines.flatMap fun l => b.labelSites l.1 l.2

/-! ## Keys -/

theorem mem_keys_of_any_get? {labels : Table String LabelSite} {name : String} {p : LabelSite → Bool}
    (h : (labels.get? name).any p = true) : name ∈ labels.keys := by
  rw [← Table.contains_eq_true_iff, Table.contains]
  cases hget : labels.get? name with
  | none =>
      rw [hget] at h
      cases h
  | some s => rfl

theorem keys_register (labels : Table String LabelSite) (s : LabelSite) : (register labels s).keys =
    if labels.keys.contains s.label then labels.keys else labels.keys ++ [s.label] := by
  unfold register
  split
  · rename_i hmenu
    rw [Bool.and_eq_true] at hmenu
    rw [if_pos (List.contains_iff_mem.2 (mem_keys_of_any_get? hmenu.2))]
  · exact Table.keys_insert labels s.label s

/-! ## Values -/

/-- The header that a name has in the end: its last plain label, or its last named menu if it has no plain label. -/
inductive Wins (sites : List LabelSite) (name : String) (s : LabelSite) : Prop
  | label {front back : List LabelSite} : sites = front ++ s :: back → s.label = name → s.kind = .label →
      (∀ t ∈ back, t.kind = .label → t.label ≠ name) → Wins sites name s
  | menu {front back : List LabelSite} : sites = front ++ s :: back → s.label = name → s.kind = .menu →
      (∀ t ∈ back, t.label ≠ name) → (∀ t ∈ sites, t.kind = .label → t.label ≠ name) → Wins sites name s

theorem find?_reverse_eq_some_iff {α : Type} {p : α → Bool} {xs : List α} {x : α} : xs.reverse.find? p = some x ↔
    p x = true ∧ ∃ front back, xs = front ++ x :: back ∧ ∀ y ∈ back, p y = false := by
  rw [List.find?_eq_some_iff_append]
  refine and_congr_right fun _ => ?_
  constructor
  · rintro ⟨back, front, heq, hback⟩
    refine ⟨front.reverse, back.reverse, ?_, fun y hy => ?_⟩
    · rw [← List.reverse_reverse xs, heq]
      simp
    · simpa using hback y (List.mem_reverse.1 hy)
  · rintro ⟨front, back, rfl, hback⟩
    refine ⟨back.reverse, front.reverse, by simp, fun y hy => ?_⟩
    simp [hback y (List.mem_reverse.1 hy)]

theorem lastSite?_eq_some_iff {sites : List LabelSite} {name : String} {s : LabelSite} :
    lastSite? sites name = some s ↔ Wins sites name s := by
  unfold lastSite?
  rw [Option.or_eq_some_iff, find?_reverse_eq_some_iff, find?_reverse_eq_some_iff, List.find?_eq_none]
  constructor
  · rintro (⟨hs, front, back, heq, hback⟩ | ⟨hnone, hname, front, back, heq, hback⟩)
    · rw [Bool.and_eq_true, decide_eq_true_iff, decide_eq_true_iff] at hs
      refine .label heq hs.1 hs.2 fun t ht hkind hname => ?_
      have ht := hback t ht
      simp [hname, hkind] at ht
    · rw [decide_eq_true_iff] at hname
      have hplain : ∀ t ∈ sites, t.kind = .label → t.label ≠ name := by
        intro t ht hkind hlabel
        apply hnone t (List.mem_reverse.2 ht)
        simp [hlabel, hkind]
      refine .menu heq hname ?_ (fun t ht => of_decide_eq_false (hback t ht)) hplain
      cases hkind : s.kind with
      | label => exact absurd hname (hplain s (heq ▸ by simp) hkind)
      | menu => rfl
  · rintro (⟨heq, hname, hkind, hback⟩ | ⟨heq, hname, hkind, hback, hplain⟩)
    · refine Or.inl ⟨by simp [hname, hkind], _, _, heq, fun t ht => ?_⟩
      cases htkind : t.kind with
      | label => simp [hback t ht htkind]
      | menu => simp
    · refine Or.inr ⟨fun t ht => ?_, by simp [hname], _, _, heq, fun t ht => decide_eq_false (hback t ht)⟩
      cases htkind : t.kind with
      | label => simp [hplain t (List.mem_reverse.1 ht) htkind]
      | menu => simp

/-! ## First labels -/

/-- A plain label of a block that has none above it. -/
structure IsFirstLabel (b : Block) (name : String) (s : LabelSite) : Prop where
  mem : s ∈ b.facts.labels
  kind : s.kind = .label
  label : s.label = name
  least : ∀ t ∈ b.facts.labels, t.kind = .label → s.line ≤ t.line

theorem firstLabel_eq_some_iff {b : Block} {name : String} :
    b.facts.firstLabel = some name ↔ ∃ s, IsFirstLabel b name s := by
  rw [Block.firstLabel_eq, Option.map_eq_some_iff]
  have hpairwise := b.pairwise_plainLabels
  constructor
  · rintro ⟨s, hs, rfl⟩
    obtain ⟨rest, hlist⟩ := List.head?_eq_some_iff.1 hs
    rw [hlist, List.pairwise_cons] at hpairwise
    obtain ⟨hmem, hkind⟩ := Block.mem_plainLabels.1 (List.mem_of_head? hs)
    refine ⟨s, hmem, hkind, rfl, fun t ht htkind => ?_⟩
    have ht := Block.mem_plainLabels.2 ⟨ht, htkind⟩
    rw [hlist] at ht
    rcases List.mem_cons.1 ht with rfl | ht
    · exact Int.le_refl _
    · exact Int.le_of_lt (hpairwise.1 t ht)
  · rintro ⟨s, hs⟩
    have hmem := Block.mem_plainLabels.2 ⟨hs.mem, hs.kind⟩
    cases hlist : b.plainLabels with
    | nil =>
        rw [hlist] at hmem
        cases hmem
    | cons t rest =>
        rw [hlist, List.pairwise_cons] at hpairwise
        obtain ⟨ht, htkind⟩ := Block.mem_plainLabels.1 (hlist ▸ List.mem_cons_self)
        rw [hlist] at hmem
        rcases List.mem_cons.1 hmem with rfl | hmem
        · exact ⟨s, rfl, hs.label⟩
        · have hlt := hpairwise.1 s hmem
          have hle := hs.least t ht htkind
          omega

theorem get?_firstLabels_iff {blocks : List Block} (settings : AnalysisSettings) (hids : (blocks.map (·.id)).Nodup)
    {id name : String} : (Tables.ofBlocks blocks settings).firstLabels.get? id = some name ↔
      ∃ b ∈ blocks, settings.ignores b.path = false ∧ b.id = id ∧ ∃ s, IsFirstLabel b name s := by
  rw [← Table.mem_entries_iff, entries_firstLabels_ofBlocks settings hids, List.mem_filterMap]
  constructor
  · rintro ⟨b, hb, hentry⟩
    obtain ⟨l, hl, heq⟩ := Option.map_eq_some_iff.1 hentry
    obtain ⟨rfl, rfl⟩ := Prod.mk.inj heq
    obtain ⟨hmem, hread⟩ := mem_readBlocks_iff.1 hb
    exact ⟨b, hmem, hread, rfl, firstLabel_eq_some_iff.1 hl⟩
  · rintro ⟨b, hmem, hread, rfl, hfirst⟩
    exact ⟨b, mem_readBlocks_iff.2 ⟨hmem, hread⟩, by rw [firstLabel_eq_some_iff.2 hfirst]; rfl⟩

/-- The headers of all blocks that are read decide the table of labels: its keys are their names in the order of first
occurrence, and a name has its last plain label, else its last named menu. The first labels are those of the blocks that
are read and have a plain label, each from its own text. -/
theorem label_table_of_headers {blocks : List Block} (settings : AnalysisSettings)
    (hids : (blocks.map (·.id)).Nodup) :
    (Tables.ofBlocks blocks settings).labels.keys = ((headers settings blocks).map (·.label)).eraseDups ∧
      (∀ name s, (Tables.ofBlocks blocks settings).labels.get? name = some s ↔
        Wins (headers settings blocks) name s) ∧
      ∀ id name, (Tables.ofBlocks blocks settings).firstLabels.get? id = some name ↔
        ∃ b ∈ blocks, settings.ignores b.path = false ∧ b.id = id ∧ ∃ s, IsFirstLabel b name s := by
  refine ⟨?_, fun name s => ?_, fun id name => get?_firstLabels_iff settings hids⟩
  · rw [labels_ofBlocks]
    exact Table.keys_foldl_step LabelSite.label keys_register (headers settings blocks)
  · rw [get?_labels_ofBlocks]
    exact lastSite?_eq_some_iff

def gates : List Block := [{ id := "a", content := "label gate:\n menu yard:\n" },
  { id := "b", content := "menu gate:\n label yard:\nlabel wall:\n" }]

theorem label_table_of_headers_gates : (gates.map (·.id)).Nodup ∧
    (Tables.ofBlocks gates .usual).labels.keys = ["gate", "yard", "wall"] ∧
    (Tables.ofBlocks gates .usual).labels.get? "gate" = some ⟨"a", "gate", 1, 7, .label⟩ ∧
    (Tables.ofBlocks gates .usual).firstLabels.get? "b" = some "yard" := by
  have hids : (gates.map (·.id)).Nodup := by decide
  have hheaders : headers .usual gates = [⟨"a", "gate", 1, 7, .label⟩, ⟨"a", "yard", 2, 7, .menu⟩,
      ⟨"b", "gate", 1, 6, .menu⟩, ⟨"b", "yard", 2, 8, .label⟩, ⟨"b", "wall", 3, 7, .label⟩] := by decide +kernel
  obtain ⟨hkeys, hlabels, hfirsts⟩ := label_table_of_headers .usual hids
  rw [hheaders] at hkeys hlabels
  refine ⟨hids, hkeys.trans (by decide +kernel), (hlabels _ _).2 (@Wins.label _ _ _ [] _ rfl rfl rfl (by decide)),
    (hfirsts _ _).2 ⟨gates[1], by simp [gates], by decide +kernel, rfl, ⟨"b", "yard", 2, 8, .label⟩, ?_⟩⟩
  constructor <;> decide +kernel

end Plotline
