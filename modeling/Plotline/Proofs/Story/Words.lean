import Mathlib.Algebra.BigOperators.Group.List.Lemmas
import Mathlib.Algebra.Order.BigOperators.Group.List
import Plotline.Proofs.Script.Speech
import Plotline.Proofs.Story.Headers
import Plotline.Proofs.Story.Usage
import Plotline.Report

/-!
# Words of characters and words of a story

A report counts words twice: those of a character line by line, and those of a block in its whole text.

* `sum_by_key`: a total is the sum of the totals of its keys.
* `sum_words_characters`: the words of all characters are those of the spoken lines of the blocks that are read.
* `SpeaksOutside`, `dialogueWords_le`: where spoken lines begin outside literals, they do not have more words than their
  block.
* `character_words_le`: then the characters do not have more words than the report.
* `more_words_than_story`: a character with more words than the whole report.
-/

namespace Plotline
open Script

theorem sum_by_key {α : Type} {key : α → String} {keys : List String} (hkeys : keys.Nodup) (g : α → Nat)
    {xs : List α} (hxs : ∀ x ∈ xs, key x ∈ keys) :
    (keys.map fun k => ((xs.filter (key · = k)).map g).sum).sum = (xs.map g).sum := by
  induction xs with
  | nil => simp
  | cons x xs ih =>
      have hone : (keys.map fun k => if key x = k then g x else 0).sum = g x := by
        rw [List.sum_map_eq_nsmul_single (key x) _ fun k hk _ => if_neg (Ne.symm hk),
          List.count_eq_one_of_mem hkeys (hxs x List.mem_cons_self), if_pos rfl, one_nsmul]
      have hcons : ∀ k, (((x :: xs).filter (key · = k)).map g).sum =
          (if key x = k then g x else 0) + ((xs.filter (key · = k)).map g).sum := by
        intro k
        by_cases hk : key x = k
        · rw [List.filter_cons_of_pos (by simpa using hk), if_pos hk]
          rfl
        · rw [List.filter_cons_of_neg (by simpa using hk), if_neg hk, Nat.zero_add]
      simp only [hcons]
      rw [List.sum_map_add, hone, ih fun y hy => hxs y (List.mem_cons_of_mem x hy)]
      rfl

/-! ## One block -/

/-- The number of words of the spoken lines of a block, line by line. -/
def dialogueWords (t : Tables) (b : Block) : Nat :=
  ((Usage.spokenIn t b).map fun d => Report.wordsInLine (Text.lines b.content.toList) d.line).sum

/-- Each line of a block that a character speaks begins outside the literals of the block. -/
def SpeaksOutside (t : Tables) (b : Block) : Prop :=
  ∀ front l below, Text.lines b.content.toList = front ++ l :: below → (Usage.speakerOf t l).isSome = true →
    Outside b.content.toList (textFrom l below)

/-- Spoken lines begin outside literals if the quotes of each line are paired. -/
theorem speaksOutside_of_paired (t : Tables) {b : Block} (h : ∀ l ∈ Text.lines b.content.toList, Paired l) :
    SpeaksOutside t b := by
  intro front l below hlines _
  apply outside_of_paired hlines
  intro k hk
  exact h k (hlines ▸ List.mem_append_left _ hk)

theorem filterMap_speakerOf (t : Tables) (ls : List (List Char)) :
    (ls.filterMap fun l => (Usage.speakerOf t l).map fun _ => wordCount l) =
      (ls.filter fun l => (Usage.speakerOf t l).isSome).map wordCount := by
  induction ls with
  | nil => rfl
  | cons l ls ih =>
      rw [List.filterMap_cons, List.filter_cons]
      cases Usage.speakerOf t l with
      | none => exact ih
      | some tag => exact congrArg (wordCount l :: ·) ih

theorem dialogueWords_eq (t : Tables) (b : Block) : dialogueWords t b =
    (((Text.lines b.content.toList).filter fun l => (Usage.speakerOf t l).isSome).map wordCount).sum := by
  have hline : ∀ l ∈ b.numberedLines, Report.wordsInLine (Text.lines b.content.toList) l.2 = wordCount l.1 := by
    rintro ⟨l, n⟩ hl
    obtain ⟨hn, hget⟩ := List.mem_zipIdx_iff_le_and_getElem?_sub.1 hl
    unfold Report.wordsInLine
    rw [if_neg (by omega), show (n : Int).toNat - 1 = n - 1 from rfl, hget]
    rfl
  have hlines : ((Usage.spokenIn t b).map fun d => Report.wordsInLine (Text.lines b.content.toList) d.line) =
      b.numberedLines.filterMap fun l => (Usage.speakerOf t l.1).map fun _ => wordCount l.1 := by
    unfold Usage.spokenIn
    rw [List.map_filterMap]
    apply List.filterMap_congr
    intro l hl
    rw [Option.map_map]
    congr 1
    funext tag
    exact hline l hl
  rw [dialogueWords, hlines, ← filterMap_speakerOf, ← Block.map_numberedLines, List.filterMap_map]
  rfl

/-- Spoken lines that begin outside literals do not have more words than their block. -/
theorem dialogueWords_le {t : Tables} {b : Block} (h : SpeaksOutside t b) :
    dialogueWords t b ≤ wordCount b.content.toList := by
  rw [dialogueWords_eq]
  exact total_wordCount_le (fun l => (Usage.speakerOf t l).isSome) h

/-! ## The report -/

section Report
variable {blocks : List Block} (settings : AnalysisSettings) (hids : (blocks.map (·.id)).Nodup)
include hids

theorem spokenLines_ofBlocks :
    Report.spokenLines blocks (Usage.ofBlocks blocks (Tables.ofBlocks blocks settings)).dialogue =
      (readBlocks settings blocks).flatMap fun b => (Usage.spokenIn (Tables.ofBlocks blocks settings) b).map fun d =>
        (d.tag, Report.wordsInLine (Text.lines b.content.toList) d.line) := by
  have hknown : ∀ b ∈ readBlocks settings blocks,
      (Table.ofList (blocks.map fun b => (b.id, b))).get? b.id = some b := by
    intro b hb
    have hkeys : ((blocks.map fun b => (b.id, b)).map (·.1)).Nodup := by
      rw [List.map_map]
      exact hids
    rw [← Table.mem_entries_iff, Table.entries_ofList hkeys]
    exact List.mem_map_of_mem (List.mem_filter.1 hb).1
  unfold Report.spokenLines
  dsimp only
  rw [Usage.entries_dialogue_ofBlocks settings hids, List.filterMap_eq_flatMap_toList, List.flatMap_assoc]
  apply List.flatMap_congr
  intro b hb
  by_cases hnone : Usage.spokenIn (Tables.ofBlocks blocks settings) b = []
  · rw [if_pos hnone, hnone]
    rfl
  · rw [if_neg hnone]
    simp only [Option.map_some, Option.toList_some, List.flatMap_singleton, hknown b hb]

theorem sum_words_characters (routes : RouteAnalysis) :
    ((Report.of blocks (Analysis.ofBlocks blocks settings) routes).characters.map (·.words)).sum =
      ((readBlocks settings blocks).map (dialogueWords (Tables.ofBlocks blocks settings))).sum := by
  have htags : ∀ x ∈ Report.spokenLines blocks (Usage.ofBlocks blocks (Tables.ofBlocks blocks settings)).dialogue,
      x.1 ∈ (Tables.ofBlocks blocks settings).characters.keys := by
    intro x hx
    rw [spokenLines_ofBlocks settings hids] at hx
    obtain ⟨b, -, hx⟩ := List.mem_flatMap.1 hx
    obtain ⟨d, hd, rfl⟩ := List.mem_map.1 hx
    exact Table.contains_eq_true_iff.1 (Usage.contains_of_mem_spokenIn hd)
  have hcharacters : ((Report.of blocks (Analysis.ofBlocks blocks settings) routes).characters.map (·.words)).sum =
      ((Tables.ofBlocks blocks settings).characters.keys.map fun tag =>
        (((Report.spokenLines blocks (Usage.ofBlocks blocks (Tables.ofBlocks blocks settings)).dialogue).filter
          (·.1 = tag)).map (·.2)).sum).sum := by
    show ((Report.characterStats blocks (Analysis.ofBlocks blocks settings)).map (·.words)).sum = _
    unfold Report.characterStats
    dsimp only
    rw [((List.mergeSort_perm _ _).map _).sum_eq, List.map_map, Table.keys, List.map_map]
    rfl
  have hkeys : (Tables.ofBlocks blocks settings).characters.keys.Nodup := Table.nodup _
  rw [hcharacters, sum_by_key hkeys _ htags, spokenLines_ofBlocks settings hids, List.map_flatMap, List.flatMap_def,
    List.sum_flatten, List.map_map]
  refine congrArg List.sum (List.map_congr_left fun b _ => ?_)
  rw [Function.comp_apply, List.map_map]
  rfl

theorem words_report (routes : RouteAnalysis) :
    (Report.of blocks (Analysis.ofBlocks blocks settings) routes).words =
      (blocks.map fun b => wordCount b.content.toList).sum := by
  have hkeys : ((blocks.map fun b => (b.id, wordCount b.content.toList)).map (·.1)).Nodup := by
    rw [List.map_map]
    exact hids
  show ((Table.ofList (blocks.map fun b => (b.id, wordCount b.content.toList))).entries.map (·.2)).sum = _
  rw [Table.entries_ofList hkeys, List.map_map]
  rfl

/-- **Words of characters and words of a story.** The words of all characters are those of the spoken lines, line by
line. Where these begin outside literals, they do not have more words than their block, and so the characters do not
have more words than the report. -/
theorem character_words_le (routes : RouteAnalysis) :
    ((Report.of blocks (Analysis.ofBlocks blocks settings) routes).characters.map (·.words)).sum =
      ((readBlocks settings blocks).map (dialogueWords (Tables.ofBlocks blocks settings))).sum ∧
    (Report.of blocks (Analysis.ofBlocks blocks settings) routes).words =
      (blocks.map fun b => wordCount b.content.toList).sum ∧
    (∀ b ∈ blocks, SpeaksOutside (Tables.ofBlocks blocks settings) b →
      dialogueWords (Tables.ofBlocks blocks settings) b ≤ wordCount b.content.toList) ∧
    ((∀ b ∈ readBlocks settings blocks, SpeaksOutside (Tables.ofBlocks blocks settings) b) →
      ((Report.of blocks (Analysis.ofBlocks blocks settings) routes).characters.map (·.words)).sum ≤
        (Report.of blocks (Analysis.ofBlocks blocks settings) routes).words) := by
  refine ⟨sum_words_characters settings hids routes, words_report settings hids routes, fun b _ => dialogueWords_le, ?_⟩
  intro houtside
  have hread : (readBlocks settings blocks).Sublist blocks := List.filter_sublist
  rw [sum_words_characters settings hids, words_report settings hids]
  calc ((readBlocks settings blocks).map (dialogueWords (Tables.ofBlocks blocks settings))).sum
      ≤ ((readBlocks settings blocks).map fun b => wordCount b.content.toList).sum :=
        List.sum_le_sum fun b hb => dialogueWords_le (houtside b hb)
    _ ≤ (blocks.map fun b => wordCount b.content.toList).sum :=
        (hread.map _).sum_le_sum fun _ _ => Nat.zero_le _

end Report

/-- A character who speaks behind a narration. -/
def night : List Block :=
  [{ id := "cast", content := "define e = Character('Eve')\n" },
    { id := "night", content := "label start:\n \"Rain.\"\n e \"Good night.\"\n" }]

theorem speaksOutside_night : ∀ b ∈ readBlocks .usual night, SpeaksOutside (Tables.ofBlocks night .usual) b := by
  have hlines : (night.flatMap fun b => Text.lines b.content.toList) =
      ["define e = Character('Eve')".toList, [], "label start:".toList, ' ' :: '"' :: "Rain.".toList ++ ['"'],
        ' ' :: 'e' :: ' ' :: '"' :: "Good night.".toList ++ ['"'], []] := by decide +kernel
  have hpaired : ∀ b ∈ night, ∀ l ∈ Text.lines b.content.toList, Paired l := by
    intro b hb l hl
    have hmem : l ∈ night.flatMap fun b => Text.lines b.content.toList := List.mem_flatMap.2 ⟨b, hb, hl⟩
    rw [hlines] at hmem
    simp only [List.mem_cons, List.not_mem_nil, or_false] at hmem
    rcases hmem with rfl | rfl | rfl | rfl | rfl | rfl
    · exact paired_of_notMem (by decide)
    · exact .nil
    · exact paired_of_notMem (by decide)
    · have hbody : LiteralBody '"' "Rain.".toList := literalBody_of_notMem (by decide) (by decide)
      exact .char (by decide) (.literal hbody .nil)
    · have hbody : LiteralBody '"' "Good night.".toList := literalBody_of_notMem (by decide) (by decide)
      exact .char (by decide) (.char (by decide) (.char (by decide) (.literal hbody .nil)))
    · exact .nil
  intro b hb
  exact speaksOutside_of_paired _ (hpaired b (List.mem_filter.1 hb).1)

theorem character_words_le_night : (night.map (·.id)).Nodup ∧
    (∀ b ∈ readBlocks .usual night, SpeaksOutside (Tables.ofBlocks night .usual) b) ∧
    ((Report.of night (Analysis.ofBlocks night .usual)
        (RouteAnalysis.ofAnalysis night (Analysis.ofBlocks night .usual) {})).characters.map (·.words)).sum ≤
      (Report.of night (Analysis.ofBlocks night .usual)
        (RouteAnalysis.ofAnalysis night (Analysis.ofBlocks night .usual) {})).words := by
  have hids : (night.map (·.id)).Nodup := by decide
  exact ⟨hids, speaksOutside_night, (character_words_le .usual hids _).2.2.2 speaksOutside_night⟩

/-- A comment with one double quote, and a spoken line below it. -/
def ruler : List Block :=
  [{ id := "a", content := "define e = Character('Eve')\n# A 6\" ruler.\ne \"Look at that thing!\"\n" }]

/-- In the text of its block, the quote in the comment takes away the one that opens the spoken line. -/
theorem more_words_than_story : ¬ ∀ (blocks : List Block) (settings : Settings), (blocks.map (·.id)).Nodup →
    ((Report.of blocks (Analysis.ofBlocks blocks settings.analysis)
        (RouteAnalysis.ofAnalysis blocks (Analysis.ofBlocks blocks settings.analysis) settings)).characters.map
          (·.words)).sum ≤
      (Report.of blocks (Analysis.ofBlocks blocks settings.analysis)
        (RouteAnalysis.ofAnalysis blocks (Analysis.ofBlocks blocks settings.analysis) settings)).words := by
  intro hall
  have hids : (ruler.map (·.id)).Nodup := by decide
  have hle := hall ruler {} hids
  rw [sum_words_characters _ hids, words_report _ hids] at hle
  have hspoken : ((readBlocks .usual ruler).map (dialogueWords (Tables.ofBlocks ruler .usual))).sum = 4 := by
    decide +kernel
  have hwords : (ruler.map fun b => wordCount b.content.toList).sum = 2 := by decide +kernel
  rw [show ({} : Settings).analysis = .usual from rfl, hspoken, hwords] at hle
  omega

end Plotline
