import Mathlib.Data.List.Basic
import Plotline.Story.Facts

/-!
# The headers of a block

* `Block.plainLabels`, `Block.namedMenus`: the plain labels and the named menus of a block, from top to bottom.
* `Block.mem_plainLabels`, `Block.mem_namedMenus`: they make up the labels that are read from the block.
* `Block.plainLabels_ne_nil_iff`, `Block.hasMenu_of_namedMenu`: which lines make a block have a label, or a menu.
* `Block.pairwise_plainLabels`: each plain label stands on a line of its own.
* `Block.exists_line_of_mem_labels`: a label or named menu stands on a line of its block, behind a keyword.
* `Block.colon_notMem_label`: no name of a header has a colon in it.
* `Block.Encloses`: the last plain label at or above a line.
-/

namespace Plotline
open Script Text

/-! ## Names -/

theorem run?_eq_some {p : Char → Bool} {s n rest : List Char} (h : run? p s = some (n, rest)) :
    n = s.takeWhile p ∧ rest = s.dropWhile p ∧ n ≠ [] := by
  unfold run? at h
  split at h
  · cases h
  · rename_i hne
    obtain ⟨hn, hrest⟩ := Prod.mk.inj (Option.some.inj h)
    exact ⟨hn.symm, hrest.symm, fun hnil => hne (hn.trans hnil)⟩

theorem isNameChar_of_keywordName? {keyword line n rest : List Char} {column : Nat}
    (h : keywordName? keyword line = some (column, n, rest)) : ∀ c ∈ n, isNameChar c = true := by
  simp only [keywordName?, Option.bind_eq_bind, Option.bind_eq_some_iff] at h
  obtain ⟨s, -, t, -, ⟨m, rest'⟩, hname, hresult⟩ := h
  obtain ⟨-, rfl, -⟩ := Prod.mk.inj (Option.some.inj hresult) |>.imp_right Prod.mk.inj
  intro c hc
  rw [(run?_eq_some hname).1] at hc
  exact List.all_eq_true.1 List.all_takeWhile c hc

theorem keywordName?_of_labelHeader? {line : List Char} {h : LabelHeader} (hh : labelHeader? line = some h) :
    ∃ keyword rest, keywordName? keyword line = some (h.column, h.name.toList, rest) := by
  simp only [labelHeader?, Option.bind_eq_bind, Option.bind_eq_some_iff] at hh
  obtain ⟨⟨column, n, s⟩, hname, e, -, hresult⟩ := hh
  obtain rfl := Option.some.inj hresult
  rw [String.toList_ofList]
  exact ⟨_, s, hname⟩

theorem keywordName?_of_namedMenuHeader? {line : List Char} {h : MenuHeader} (hh : namedMenuHeader? line = some h) :
    ∃ keyword rest, keywordName? keyword line = some (h.column, h.name.toList, rest) := by
  simp only [namedMenuHeader?, Option.bind_eq_bind, Option.bind_eq_some_iff] at hh
  obtain ⟨⟨column, n, s⟩, hname, e, -, hresult⟩ := hh
  obtain rfl := Option.some.inj hresult
  rw [String.toList_ofList]
  exact ⟨_, s, hname⟩

theorem isSome_menuHeader? {line : List Char} (h : (namedMenuHeader? line).isSome = true) :
    (menuHeader? line).isSome = true := by
  unfold menuHeader?
  split
  · rfl
  · rwa [Option.isSome_map]

/-! ## Plain labels and named menus -/

namespace Block

def plainLabels (b : Block) : List LabelSite :=
  b.numberedLines.filterMap fun l => (labelHeader? l.1).map fun h => ⟨b.id, h.name, l.2, h.column + 1, .label⟩

def namedMenus (b : Block) : List LabelSite :=
  b.numberedLines.filterMap fun l => (namedMenuHeader? l.1).map fun h => ⟨b.id, h.name, l.2, h.column + 1, .menu⟩

theorem filter_labels (b : Block) : b.facts.labels.filter (·.kind = .label) = b.plainLabels := by
  unfold facts plainLabels
  rw [List.filter_flatMap, List.filterMap_eq_flatMap_toList]
  refine List.flatMap_congr fun l _ => ?_
  unfold labelSites
  cases labelHeader? l.1 <;> cases namedMenuHeader? l.1 <;> simp

theorem filter_menus (b : Block) : b.facts.labels.filter (·.kind = .menu) = b.namedMenus := by
  unfold facts namedMenus
  rw [List.filter_flatMap, List.filterMap_eq_flatMap_toList]
  refine List.flatMap_congr fun l _ => ?_
  unfold labelSites
  cases labelHeader? l.1 <;> cases namedMenuHeader? l.1 <;> simp

theorem mem_plainLabels {b : Block} {s : LabelSite} : s ∈ b.plainLabels ↔ s ∈ b.facts.labels ∧ s.kind = .label := by
  rw [← filter_labels, List.mem_filter, decide_eq_true_eq]

theorem mem_namedMenus {b : Block} {s : LabelSite} : s ∈ b.namedMenus ↔ s ∈ b.facts.labels ∧ s.kind = .menu := by
  rw [← filter_menus, List.mem_filter, decide_eq_true_eq]

theorem firstLabel_eq (b : Block) : b.facts.firstLabel = b.plainLabels.head?.map (·.label) := by
  rw [BlockFacts.firstLabel, ← List.head?_filter, filter_labels]

/-- A label or named menu stands on a line of its block, behind a keyword. -/
theorem exists_line_of_mem_labels {b : Block} {s : LabelSite} (h : s ∈ b.facts.labels) :
    ∃ l ∈ b.numberedLines, s.block = b.id ∧ s.line = l.2 ∧ ∃ (column : Nat) (keyword rest : List Char),
      s.column = column + 1 ∧ keywordName? keyword l.1 = some (column, s.label.toList, rest) := by
  obtain ⟨l, hl, hs⟩ := List.mem_flatMap.1 h
  rcases List.mem_append.1 hs with hs | hs
  · obtain ⟨header, hheader, rfl⟩ := Option.map_eq_some_iff.1 (Option.mem_toList.1 hs)
    obtain ⟨keyword, rest, hname⟩ := keywordName?_of_labelHeader? hheader
    exact ⟨l, hl, rfl, rfl, header.column, keyword, rest, rfl, hname⟩
  · obtain ⟨header, hheader, rfl⟩ := Option.map_eq_some_iff.1 (Option.mem_toList.1 hs)
    obtain ⟨keyword, rest, hname⟩ := keywordName?_of_namedMenuHeader? hheader
    exact ⟨l, hl, rfl, rfl, header.column, keyword, rest, rfl, hname⟩

theorem block_of_mem_labels {b : Block} {s : LabelSite} (h : s ∈ b.facts.labels) : s.block = b.id := by
  obtain ⟨l, -, hblock, -⟩ := exists_line_of_mem_labels h
  exact hblock

theorem colon_notMem_label {b : Block} {s : LabelSite} (h : s ∈ b.facts.labels) : ':' ∉ s.label.toList := by
  obtain ⟨l, -, -, -, column, keyword, rest, -, hname⟩ := exists_line_of_mem_labels h
  intro hcolon
  have hchar := isNameChar_of_keywordName? hname ':' hcolon
  simp [isNameChar] at hchar

/-! ## Lines -/

theorem map_numberedLines (b : Block) : b.numberedLines.map (·.1) = Text.lines b.content.toList :=
  List.zipIdx_map_fst 1 _

theorem plainLabels_ne_nil_iff (b : Block) :
    b.plainLabels ≠ [] ↔ ∃ line ∈ Text.lines b.content.toList, (labelHeader? line).isSome = true := by
  unfold plainLabels
  rw [← map_numberedLines, Ne, List.filterMap_eq_nil_iff]
  simp [Option.isSome_iff_ne_none]

theorem hasMenu_of_namedMenu {b : Block} {s : LabelSite} (hs : s ∈ b.namedMenus) : b.hasMenu = true := by
  obtain ⟨l, hl, hs⟩ := List.mem_filterMap.1 hs
  obtain ⟨header, hheader, -⟩ := Option.map_eq_some_iff.1 hs
  have hline : l.1 ∈ Text.lines b.content.toList := by
    rw [← map_numberedLines]
    exact List.mem_map_of_mem hl
  exact List.any_eq_true.2 ⟨l.1, hline, isSome_menuHeader? (by rw [hheader]; rfl)⟩

theorem pairwise_numberedLines (b : Block) : b.numberedLines.Pairwise fun k l => k.2 < l.2 := by
  unfold numberedLines
  rw [← List.pairwise_map (R := (· < ·)), List.zipIdx_map_snd]
  exact List.pairwise_lt_range'

/-- What is read off single lines and keeps their numbers stands on lines of its own, from top to bottom. -/
theorem pairwise_filterMap {b : Block} {α : Type} {f : List Char → Nat → Option α} {lineOf : α → Int}
    (hf : ∀ line n a, f line n = some a → lineOf a = n) :
    (b.numberedLines.filterMap fun l => f l.1 l.2).Pairwise fun x y => lineOf x < lineOf y := by
  refine List.Pairwise.filterMap _ ?_ b.pairwise_numberedLines
  intro k l hkl x hx y hy
  rw [hf k.1 k.2 x hx, hf l.1 l.2 y hy]
  exact Int.ofNat_lt.2 hkl

theorem line_of_labelHeader (b : Block) (line : List Char) (n : Nat) (s : LabelSite)
    (h : ((labelHeader? line).map fun h => (⟨b.id, h.name, n, h.column + 1, .label⟩ : LabelSite)) = some s) :
    s.line = n := by
  obtain ⟨header, -, rfl⟩ := Option.map_eq_some_iff.1 h
  rfl

theorem pairwise_plainLabels (b : Block) : b.plainLabels.Pairwise fun s t => s.line < t.line :=
  pairwise_filterMap (line_of_labelHeader b)

/-- The number of a plain label's line is a place among the lines, counted from one. -/
theorem line_of_mem_plainLabels {b : Block} {s : LabelSite} (h : s ∈ b.plainLabels) :
    ∃ n : Nat, s.line = n ∧ 1 ≤ n := by
  obtain ⟨l, hl, hs⟩ := List.mem_filterMap.1 h
  obtain ⟨h, -, rfl⟩ := Option.map_eq_some_iff.1 hs
  exact ⟨l.2, rfl, List.le_snd_of_mem_zipIdx hl⟩

/-- The last plain label of a block at or above a line. -/
structure Encloses (b : Block) (line : Int) (s : LabelSite) : Prop where
  mem : s ∈ b.plainLabels
  above : s.line ≤ line
  last : ∀ t ∈ b.plainLabels, t.line ≤ line → t.line ≤ s.line

end Block
end Plotline
