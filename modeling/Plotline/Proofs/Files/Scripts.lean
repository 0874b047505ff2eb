import Mathlib.Data.String.Basic
import Mathlib.Tactic.Choose
import Plotline.Files.Scripts
import Plotline.Proofs.Files.Encoding
import Plotline.Proofs.Strict.Basic

/-!
# Blocks from a folder of scripts

* `Place.le_trans`, `Place.le_total`, `Place.lex_of_le`: places are in order name by name.
* `joined_injective`: different places are spelt differently.
* `IsScriptFile`, `mem_scripts`: the script files below a folder, and that they are what is found.
* `IsBlockOf`: what a script file becomes.
* `loadBlocks_folder`: a folder of scripts in valid bytes becomes one block for each script file, in order.
-/

namespace Plotline.Files
open Text

theorem FileName.text_injective : Function.Injective FileName.text := by
  rintro ⟨a, _⟩ ⟨b, _⟩ h
  congr

/-! ## The order of places -/

namespace Place

theorem le_total : ∀ a b : Place, (Place.le a b || Place.le b a) = true
  | [], _ => rfl
  | _ :: _, [] => rfl
  | a :: as, b :: bs => by
    by_cases h : a = b
    · simpa [Place.le, h] using le_total as bs
    · have hlt := lt_or_gt_of_ne (FileName.text_injective.ne h)
      simpa [Place.le, h, Ne.symm h] using hlt

theorem le_trans : ∀ a b c : Place, Place.le a b = true → Place.le b c = true → Place.le a c = true
  | [], _, _, _, _ => rfl
  | _ :: _, b :: _, [], _, h => by simp [Place.le] at h
  | a :: as, b :: bs, c :: cs, hab, hbc => by
    simp only [Place.le] at hab hbc ⊢
    split at hab
    · rename_i hab'
      subst hab'
      split at hbc
      · rename_i hac
        rw [if_pos hac]
        exact le_trans as bs cs hab hbc
      · rename_i hne
        rw [if_neg hne]
        exact hbc
    · rename_i hne
      have hlt : a.text < b.text := of_decide_eq_true hab
      have hlt' : a.text < c.text := by
        split at hbc
        · rename_i hbc'
          exact hbc' ▸ hlt
        · exact hlt.trans (of_decide_eq_true hbc)
      rw [if_neg fun hac => hlt'.ne (congrArg FileName.text hac)]
      exact decide_eq_true hlt'

def names (place : Place) : List String := place.map (·.text)

/-- Of two different places in order, the first different name comes first, or the first place ends before it. -/
theorem lex_of_le : ∀ {a b : Place}, Place.le a b = true → a ≠ b → List.Lex (· < ·) a.names b.names
  | [], [], _, hne => absurd rfl hne
  | [], _ :: _, _, _ => .nil
  | a :: as, b :: bs, h, hne => by
    simp only [Place.le] at h
    split at h
    · rename_i hab
      subst hab
      exact .cons (lex_of_le h fun has => hne (congrArg _ has))
    · exact .rel (of_decide_eq_true h)

end Place

/-! ## The spelling of places -/

theorem toList_joined (place : Place) : (joined place).toList =
    ['/'].intercalate (place.map fun n => n.text.toList) := by
  rw [joined, String.toList_intercalate, List.map_map]
  rfl

/-- No name is empty or has a slash, so that the names can be told from the spelling. -/
theorem joined_injective : Function.Injective joined := by
  have hsplit : ∀ place : Place, place ≠ [] →
      (joined place).toList.splitOn '/' = place.map fun n => n.text.toList := by
    intro place hne
    rw [toList_joined]
    refine List.splitOn_intercalate '/' ?_ (by simpa using hne)
    rw [List.forall_mem_map]
    exact fun n _ => n.valid.2
  have hnil : ∀ place : Place, joined place = joined [] → place = [] := by
    intro place h
    by_contra hne
    obtain ⟨n, rest, rfl⟩ := List.exists_cons_of_ne_nil hne
    have hparts := hsplit (n :: rest) hne
    rw [h] at hparts
    have hempty : [[]] = (n :: rest).map fun n : FileName => n.text.toList := hparts
    rw [List.map_cons, List.cons.injEq] at hempty
    exact n.valid.1 (String.toList_eq_nil_iff.1 hempty.1.symm)
  intro a b h
  rcases eq_or_ne a [] with rfl | ha
  · exact (hnil b h.symm).symm
  rcases eq_or_ne b [] with rfl | hb
  · exact hnil a h
  · have hmap := hsplit a ha
    rw [h, hsplit b hb] at hmap
    have hinjective : Function.Injective fun n : FileName => n.text.toList := fun m n hmn =>
      FileName.text_injective (String.toList_injective hmn)
    exact List.map_injective_iff.2 hinjective hmap.symm

/-! ## Script files below a folder -/

/-- A way whose last name ends as the names of scripts do. -/
def IsScriptWay (way : Place) : Prop := ∃ front name stem, way = front ++ [name] ∧ name.text = stem ++ ".rpy"

/-- A file below a folder, at any depth, whose name ends as the names of scripts do. -/
def IsScriptFile (t : FileTree) (folder way : Place) (content : Bytes) : Prop :=
  IsScriptWay way ∧ t.files.get? (folder ++ way) = some content

theorem FileName.isScript_iff {n : FileName} : n.isScript = true ↔ ∃ stem, n.text = stem ++ ".rpy" := by
  rw [FileName.isScript, List.isSuffixOf_iff_suffix]
  constructor
  · rintro ⟨stem, h⟩
    refine ⟨String.ofList stem, String.toList_injective ?_⟩
    rw [String.toList_append, String.toList_ofList, h]
  · rintro ⟨stem, h⟩
    exact ⟨stem.toList, by rw [h, String.toList_append]⟩

theorem isScriptWay_iff {way : Place} : IsScriptWay way ↔ way.getLast?.any FileName.isScript = true := by
  rcases List.eq_nil_or_concat way with rfl | ⟨front, name, rfl⟩
  · simp [IsScriptWay]
  · simp [IsScriptWay, FileName.isScript_iff]

namespace FileTree

theorem restBelow?_eq_some_iff : ∀ {folder place way : Place},
    restBelow? folder place = some way ↔ place = folder ++ way
  | [], place, way => by simp [restBelow?]
  | _ :: _, [], way => by simp [restBelow?]
  | a :: as, b :: bs, way => by
    rw [restBelow?]
    split
    · rename_i h
      rw [restBelow?_eq_some_iff, List.cons_append, List.cons.injEq]
      exact ⟨fun hb => ⟨h.symm, hb⟩, fun hb => hb.2⟩
    · rename_i h
      simp [Ne.symm h]

theorem self_mem_upwards (place : Place) : place ∈ upwards place :=
  List.mem_map.2 ⟨place.length, List.mem_range.2 (Nat.lt_succ_self _), List.take_length⟩

theorem mem_search_of_file {t : FileTree} {folder way : Place} {content : Bytes} {named : FileName → Bool}
    (hfile : t.files.get? (folder ++ way) = some content) (hnamed : way.getLast?.any named = true) :
    way ∈ t.search folder named := by
  have hkey : folder ++ way ∈ t.files.keys := List.mem_map.2 ⟨_, Table.mem_entries_iff.2 hfile, rfl⟩
  rw [search, List.mem_eraseDups, List.mem_filter]
  refine ⟨List.mem_filterMap.2 ⟨folder ++ way, ?_, restBelow?_eq_some_iff.2 rfl⟩, hnamed⟩
  exact List.mem_flatMap.2 ⟨_, List.mem_append_right _ hkey, self_mem_upwards _⟩

theorem mem_scripts {t : FileTree} {folder way : Place} {content : Bytes} :
    (way, content) ∈ t.scripts folder ↔ IsScriptFile t folder way content := by
  rw [scripts, (List.mergeSort_perm _ _).mem_iff, List.mem_filterMap, IsScriptFile, isScriptWay_iff]
  constructor
  · rintro ⟨found, hfound, hread⟩
    obtain ⟨c, hc, heq⟩ := Option.map_eq_some_iff.1 hread
    cases heq
    rw [search, List.mem_eraseDups, List.mem_filter] at hfound
    exact ⟨hfound.2, hc⟩
  · rintro ⟨hname, hfile⟩
    exact ⟨way, mem_search_of_file hfile hname, Option.map_eq_some_iff.2 ⟨content, hfile, rfl⟩⟩

theorem nodup_scripts (t : FileTree) (folder : Place) : ((t.scripts folder).map (·.1)).Nodup := by
  rw [scripts, ((List.mergeSort_perm _ _).map _).nodup_iff, List.map_filterMap]
  refine (nodup_eraseDups _).filterMap fun way way' found h h' => ?_
  simp only [Option.map_map, Option.mem_def, Option.map_eq_some_iff, Function.comp_apply] at h h'
  obtain ⟨_, -, rfl⟩ := h
  obtain ⟨_, -, h⟩ := h'
  exact h.symm

theorem pairwise_scripts (t : FileTree) (folder : Place) :
    ((t.scripts folder).map (·.1)).Pairwise fun a b => List.Lex (· < ·) a.names b.names := by
  have hsorted : (t.scripts folder).Pairwise fun a b => Place.le a.1 b.1 = true :=
    List.pairwise_mergeSort (fun a b c => Place.le_trans a.1 b.1 c.1) (fun a b => Place.le_total a.1 b.1) _
  rw [List.pairwise_map]
  exact (hsorted.and (List.pairwise_map.1 (nodup_scripts t folder))).imp fun h => Place.lex_of_le h.1 h.2

end FileTree

/-! ## Blocks of script files -/

/-- What a script file becomes: a block that is known by its way from the folder, named as the file is, and has the text
of its bytes without a mark and with unified line ends. -/
structure IsBlockOf (way : Place) (content : Bytes) (b : Block) : Prop where
  id : b.id = joined way
  path : b.path = some (joined way)
  title : b.title = way.getLast?.map (·.text)
  content : ∃ s, content = Utf8.encode s ∧ b.content.toList = unifyLineEnds (Utf8.unmarked s)

theorem IsBlockOf.return_notMem {way : Place} {content : Bytes} {b : Block} (h : IsBlockOf way content b) :
    '\r' ∉ b.content.toList := by
  obtain ⟨s, -, hs⟩ := h.content
  rw [hs]
  exact not_mem_unifyLineEnds _

theorem scriptText_encode (s : List Char) : scriptText (Utf8.encode s) = .ok (unifyLineEnds (Utf8.unmarked s)) := by
  rw [scriptText, Utf8.decodeMarked_encode]
  exact congrArg Except.ok (mergeLineEnds_of_not_mem (not_mem_unifyLineEnds _))

theorem exists_scriptBlock {content : Bytes} (h : ByteArray.IsValidUTF8 ⟨content.toArray⟩) (way : Place) :
    ∃ b, scriptBlock way content = .ok b ∧ IsBlockOf way content b := by
  obtain ⟨s, rfl⟩ := Utf8.exists_encode_of_isValidUTF8 h
  rw [scriptBlock, scriptText_encode]
  exact ⟨_, rfl, rfl, rfl, rfl, s, rfl, String.toList_ofList⟩

/-- The blocks of the script files below a folder: one for each of them, in the order of their ways. -/
structure Loaded (t : FileTree) (folder : Place) (ways : List Place) (blocks : List Block) : Prop where
  mem_ways : ∀ way, way ∈ ways ↔ ∃ content, IsScriptFile t folder way content
  ordered : ways.Pairwise fun a b => List.Lex (· < ·) a.names b.names
  each : List.Forall₂ (fun way b => ∃ content, IsScriptFile t folder way content ∧ IsBlockOf way content b) ways blocks
  ids : blocks.map (·.id) = ways.map joined
  nodup : (blocks.map (·.id)).Nodup
  return_notMem : ∀ b ∈ blocks, '\r' ∉ b.content.toList

/-- **Blocks from a folder.** If the bytes of all script files below a folder are valid, the folder is read as one block
for each script file, whatever else it holds. They come in the order of their ways, name by name, and are known by these
ways, each by its own; no text keeps a carriage return. -/
theorem loadBlocks_folder (t : FileTree) (p : Path) {folder : Place} (hfolder : t.look p = .folder folder)
    (hvalid : ∀ way content, IsScriptFile t folder way content → ByteArray.IsValidUTF8 ⟨content.toArray⟩) :
    ∃ ways blocks, t.loadBlocks p = .ok ⟨p, blocks⟩ ∧ Loaded t folder ways blocks := by
  have hblock : ∀ e ∈ t.scripts folder, ∃ b, scriptBlock e.1 e.2 = .ok b ∧ IsBlockOf e.1 e.2 b := fun e he =>
    exists_scriptBlock (hvalid _ _ (FileTree.mem_scripts.1 he)) e.1
  have : Nonempty Block := ⟨{ id := "", content := "" }⟩
  choose! block hok hblock using hblock
  have hids : ((t.scripts folder).map block).map (·.id) = ((t.scripts folder).map (·.1)).map joined := by
    rw [List.map_map, List.map_map]
    exact List.map_congr_left fun e he => (hblock e he).id
  refine ⟨(t.scripts folder).map (·.1), (t.scripts folder).map block, ?_, ?_, ?_, ?_, hids, ?_, ?_⟩
  · rw [FileTree.loadBlocks, hfolder]
    dsimp only
    rw [Strict.mapM_eq_ok hok]
    rfl
  · intro way
    rw [List.mem_map]
    constructor
    · rintro ⟨e, he, rfl⟩
      exact ⟨e.2, FileTree.mem_scripts.1 he⟩
    · rintro ⟨content, h⟩
      exact ⟨(way, content), FileTree.mem_scripts.2 h, rfl⟩
  · exact FileTree.pairwise_scripts t folder
  · rw [List.forall₂_map_left_iff, List.forall₂_map_right_iff, List.forall₂_same]
    exact fun e he => ⟨e.2, FileTree.mem_scripts.1 he, hblock e he⟩
  · rw [hids]
    exact (FileTree.nodup_scripts t folder).map joined_injective
  · rw [List.forall_mem_map]
    exact fun e he => (hblock e he).return_notMem

/-! A shelf with two scripts in folders, one of them marked and with both kinds of line ends, other files, and a folder
that is named as a script. -/

namespace Shelf

def game : FileName := ⟨"game", by decide⟩
def a : FileName := ⟨"a", by decide⟩
def ab : FileName := ⟨"a-b", by decide⟩
def x : FileName := ⟨"x.rpy", by decide⟩
def notes : FileName := ⟨"notes.txt", by decide⟩
def old : FileName := ⟨"old.rpy", by decide⟩

def tree : FileTree where
  files := Table.ofList [([game, ab, x], [0xEF, 0xBB, 0xBF, 0x61, 0x0D, 0x0A, 0x62, 0x0D]),
    ([game, old, notes], [0xFF]),
    ([game, a, x], [0x61, 0x0A])]

theorem look_game : tree.look { names := [game] } = .folder [game] := by rfl

theorem files_valid : ∀ way content, IsScriptFile tree [game] way content →
    ByteArray.IsValidUTF8 ⟨content.toArray⟩ := by
  rintro way content ⟨hname, hfile⟩
  have hentry := Table.mem_entries_iff.2 hfile
  have hentries : tree.files.entries = [([game, ab, x], [0xEF, 0xBB, 0xBF, 0x61, 0x0D, 0x0A, 0x62, 0x0D]),
    ([game, old, notes], [0xFF]), ([game, a, x], [0x61, 0x0A])] := by rfl
  rw [hentries] at hentry
  simp only [List.mem_cons, Prod.mk.injEq, List.not_mem_nil, or_false] at hentry
  rcases hentry with ⟨-, rfl⟩ | ⟨hway, -⟩ | ⟨-, rfl⟩
  · exact .intro ['\uFEFF', 'a', '\r', '\n', 'b', '\r'] (by decide)
  · obtain rfl : way = [old, notes] := List.cons_inj_right game |>.1 hway
    exact absurd (isScriptWay_iff.1 hname) (by decide)
  · exact .intro ['a', '\n'] (by decide)

end Shelf

theorem loadBlocks_folder_shelf : Shelf.tree.look { names := [Shelf.game] } = .folder [Shelf.game] ∧
    (∀ way content, IsScriptFile Shelf.tree [Shelf.game] way content → ByteArray.IsValidUTF8 ⟨content.toArray⟩) ∧
    ∃ ways blocks, Shelf.tree.loadBlocks { names := [Shelf.game] } = .ok ⟨{ names := [Shelf.game] }, blocks⟩ ∧
      Loaded Shelf.tree [Shelf.game] ways blocks :=
  ⟨Shelf.look_game, Shelf.files_valid, loadBlocks_folder _ _ Shelf.look_game Shelf.files_valid⟩

end Plotline.Files
