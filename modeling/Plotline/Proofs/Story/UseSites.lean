import Plotline.Proofs.Script.Lines
import Plotline.Proofs.Story.Usage

/-!
# The index of usage

What a story says of its speakers and of the use of its variables, read off the lines of its blocks.

* `Mentions`: a name stands in a text and no name runs on there; `mentions_iff`: the search finds these names.
* `Speaks`: a line that opens with a tag and a double quote; `speakerOf_eq_some_iff`: the speaker is read off it.
* `SpokenLines`, `UsedOn`: the spoken lines of a block, and the places where a variable is used.
* `Usage.Indexes`: an index has the lines of each speaker counted, and all spoken lines and uses in order.
* `usage_indexes`: the usage of a story is such an index.
-/

namespace Plotline
open Script Text

/-! ## Names in a text -/

/-- The name stands somewhere in the text, with no character of a name directly before or after it. -/
def Mentions (name s : List Char) : Prop :=
  ∃ u w, s = u ++ (name ++ w) ∧ (∀ c ∈ u.getLast?, isNameChar c = false) ∧ ∀ c ∈ w.head?, isNameChar c = false

theorem not_any_isNameChar_iff {o : Option Char} : (!o.any isNameChar) = true ↔ ∀ c ∈ o, isNameChar c = false := by
  cases o <;> simp

/-- Whether the name stands at the head of a text, behind a given character. -/
theorem heads_iff {name s : List Char} {before : Option Char} :
    (!before.any isNameChar && (after? name s).any fun r => !r.head?.any isNameChar) = true ↔
      (∀ c ∈ before, isNameChar c = false) ∧ ∃ w, s = name ++ w ∧ ∀ c ∈ w.head?, isNameChar c = false := by
  rw [Bool.and_eq_true, not_any_isNameChar_iff, Option.any_eq_true]
  refine and_congr_right fun _ => exists_congr fun w => ?_
  rw [not_any_isNameChar_iff, after?_eq_some_iff]

/-- The name stands at the head of the text or further on, behind the character that the search has passed. -/
theorem mentionsFrom_iff {name : List Char} : ∀ {s : List Char} {before : Option Char},
    mentionsFrom name before s = true ↔ ∃ u w, s = u ++ (name ++ w) ∧
      (∀ c ∈ u.getLast?.or before, isNameChar c = false) ∧ ∀ c ∈ w.head?, isNameChar c = false := by
  intro s
  induction s with
  | nil =>
      intro before
      rw [mentionsFrom, Bool.or_false, heads_iff]
      constructor
      · rintro ⟨hbefore, w, heq, hw⟩
        exact ⟨[], w, heq, hbefore, hw⟩
      · rintro ⟨u, w, heq, hu, hw⟩
        obtain rfl := (List.append_eq_nil_iff.1 heq.symm).1
        exact ⟨hu, w, heq, hw⟩
  | cons c s ih =>
      intro before
      have hlast : ∀ u : List Char, (c :: u).getLast?.or before = u.getLast?.or (some c) := by
        intro u
        rw [List.getLast?_cons]
        cases u.getLast? <;> rfl
      rw [mentionsFrom, Bool.or_eq_true, heads_iff, ih]
      constructor
      · rintro (⟨hbefore, w, heq, hw⟩ | ⟨u, w, rfl, hu, hw⟩)
        · exact ⟨[], w, heq, hbefore, hw⟩
        · exact ⟨c :: u, w, rfl, hlast u ▸ hu, hw⟩
      · rintro ⟨u, w, heq, hu, hw⟩
        cases u with
        | nil => exact Or.inl ⟨hu, w, heq, hw⟩
        | cons d u =>
            obtain ⟨rfl, rfl⟩ := List.cons.inj heq
            exact Or.inr ⟨u, w, rfl, hlast u ▸ hu, hw⟩

theorem mentions_iff {name s : List Char} : mentions name s = true ↔ Mentions name s := by
  unfold mentions
  rw [mentionsFrom_iff]
  simp only [Option.or_none]
  rfl

/-! ## Speakers -/

/-- A line that opens with a tag, blanks and a double quote. -/
inductive Speaks (tag : List Char) : List Char → Prop
  | mk {margin gap rest : List Char} : IsBlanks margin → IsGap gap → Speaks tag (margin ++ tag ++ gap ++ '"' :: rest)

/-- A name as the tags of characters are. -/
def IsName (s : List Char) : Prop := s ≠ [] ∧ ∀ c ∈ s, isNameChar c = true

theorem isBlank_of_isNameChar {c : Char} (h : isNameChar c = true) : isBlank c = false := by
  apply isBlank_of_isDottedChar
  rw [isDottedChar, h, Bool.true_or]

theorem exists_speaker?_iff {n line : List Char} :
    (∃ r, speaker? line = some (n, r)) ↔ IsName n ∧ Speaks n line := by
  constructor
  · rintro ⟨r, h⟩
    simp only [speaker?, Option.bind_eq_bind, Option.bind_eq_some_iff] at h
    obtain ⟨⟨m, s⟩, hname, s', hblanks, rest, hquote, h⟩ := h
    obtain ⟨rfl, rfl⟩ := Prod.mk.inj (Option.some.inj h)
    obtain ⟨margin, hmargin, hs⟩ := exists_blanks_append line
    obtain ⟨hne, hchars, hskip⟩ := exists_run_of_run? hname
    obtain ⟨gap, hgap, rfl⟩ := exists_gap_of_afterBlanks? hblanks
    obtain rfl := after?_eq_some_iff.1 hquote
    refine ⟨⟨hne, hchars⟩, ?_⟩
    have hform : Speaks m (margin ++ m ++ gap ++ '"' :: rest) := .mk hmargin hgap
    simp only [List.append_assoc] at hform
    rw [hs, hskip]
    exact hform
  · rintro ⟨⟨hne, hchars⟩, @⟨margin, gap, rest, hmargin, hgap⟩⟩
    have hskip : skipBlanks (margin ++ n ++ gap ++ '"' :: rest) = n ++ (gap ++ '"' :: rest) := by
      refine skipBlanks_eq_iff.2 ⟨margin, hmargin, by simp only [List.append_assoc], ?_⟩
      exact head?_append_of_all (fun c => isBlank_of_isNameChar) hne hchars _
    have hname : name? (n ++ (gap ++ '"' :: rest)) = some (n, gap ++ '"' :: rest) :=
      run?_eq_some_iff.2 ⟨hne, hchars, rfl,
        head?_append_of_all (fun c => isNameChar_of_isBlank) hgap.1 hgap.2 _⟩
    have hblanks : afterBlanks? (gap ++ '"' :: rest) = some ('"' :: rest) := by
      refine afterBlanks?_eq_some_iff.2 ⟨gap, hgap, rfl, fun c hc => ?_⟩
      obtain rfl := Option.some.inj hc
      decide
    refine ⟨rest, ?_⟩
    unfold speaker?
    simp only [hskip, hname, hblanks, Option.bind_eq_bind, Option.bind_some]
    rfl

/-- Among tags that are names, the speaker of a line is the one that the line opens with. -/
theorem speakerOf_eq_some_iff {t : Tables} (hnames : ∀ tag, t.characters.contains tag = true → IsName tag.toList)
    {line : List Char} {tag : String} :
    Usage.speakerOf t line = some tag ↔ t.characters.contains tag = true ∧ Speaks tag.toList line := by
  have hspeaker : Usage.speakerOf t line =
      ((speaker? line).map fun s => String.ofList s.1).filter t.characters.contains := by
    unfold Usage.speakerOf dialogue?
    split
    · rename_i found hfound
      rw [hfound]
      rfl
    · rename_i hnone
      rw [hnone]
      cases narration? line <;> rfl
  rw [hspeaker, Option.filter_eq_some_iff, Option.map_eq_some_iff]
  constructor
  · rintro ⟨⟨⟨n, r⟩, h, rfl⟩, hcontains⟩
    rw [String.toList_ofList]
    exact ⟨hcontains, (exists_speaker?_iff.1 ⟨r, h⟩).2⟩
  · rintro ⟨hcontains, hspeaks⟩
    obtain ⟨r, h⟩ := exists_speaker?_iff.2 ⟨hnames tag hcontains, hspeaks⟩
    exact ⟨⟨(tag.toList, r), h, String.ofList_toList⟩, hcontains⟩

theorem isName_of_contains_characters {blocks : List Block} {settings : AnalysisSettings} {tag : String}
    (h : (Tables.ofBlocks blocks settings).characters.contains tag = true) : IsName tag.toList := by
  rw [Table.contains, get?_characters_ofBlocks, Option.isSome_iff_exists] at h
  obtain ⟨c, hc⟩ := h
  obtain ⟨b, -, hmem⟩ := List.mem_flatMap.1 (List.mem_reverse.1 (List.mem_of_find?_eq_some hc))
  obtain ⟨⟨offset, name, rest⟩, hhead, rfl⟩ := List.mem_map.1 hmem
  have htag := List.find?_some hc
  obtain rfl : String.ofList name = tag := of_decide_eq_true htag
  obtain ⟨i, hi⟩ := List.getElem?_of_mem hhead
  obtain ⟨z, head, -, hform, -⟩ := exists_finds hi
  obtain @⟨margin, gap, name, w₁, w₂, w₃, -, -, -, hne, hchars, -⟩ := hform
  rw [String.toList_ofList]
  exact ⟨hne, hchars⟩

/-! ## Lines of blocks -/

/-- The lines of a block that characters speak, from top to bottom and each once. -/
structure SpokenLines (t : Tables) (b : Block) (ds : List DialogueLine) : Prop where
  ordered : ds.Pairwise fun d e => d.line < e.line
  mem_iff : ∀ d, d ∈ ds ↔
    t.characters.contains d.tag = true ∧ ∃ line, b.HasLine d.line line ∧ Speaks d.tag.toList line

/-- The lines of blocks that mention the name of a variable outside literals and comments, block by block, from top to
bottom and each once; the line that defines the variable is left out. -/
structure UsedOn (bs : List Block) (name : String) (v : Variable) (us : List UseSite) : Prop where
  ordered : us.Pairwise fun s s' => (bs.map (·.id)).idxOf s.block < (bs.map (·.id)).idxOf s'.block ∨
    s.block = s'.block ∧ s.line < s'.line
  mem_iff : ∀ s, s ∈ us ↔ ¬(v.block = s.block ∧ v.line = s.line) ∧
    ∃ b ∈ bs, s.block = b.id ∧ ∃ line, b.HasLine s.line line ∧ Mentions name.toList (mask line)

namespace Usage

theorem spokenLines_spokenIn {t : Tables} (hnames : ∀ tag, t.characters.contains tag = true → IsName tag.toList)
    (b : Block) : SpokenLines t b (spokenIn t b) := by
  have hline : ∀ (line : List Char) (n : Nat) (d : DialogueLine),
      (speakerOf t line).map (fun tag => (⟨n, tag⟩ : DialogueLine)) = some d → d.line = n := by
    intro line n d h
    obtain ⟨tag, -, rfl⟩ := Option.map_eq_some_iff.1 h
    rfl
  refine ⟨Block.pairwise_filterMap hline, fun d => (Block.mem_filterMap_iff_exists hline).trans ?_⟩
  constructor
  · rintro ⟨line, h, n, hn, hd⟩
    obtain ⟨tag, htag, rfl⟩ := Option.map_eq_some_iff.1 hd
    obtain ⟨hcontains, hspeaks⟩ := (speakerOf_eq_some_iff hnames).1 htag
    exact ⟨hcontains, line, h, hspeaks⟩
  · rintro ⟨hcontains, line, h, hspeaks⟩
    obtain ⟨n, hn, -⟩ := Block.exists_mem_of_hasLine h
    refine ⟨line, h, n, hn, ?_⟩
    rw [(speakerOf_eq_some_iff hnames).2 ⟨hcontains, hspeaks⟩, Option.map_some, ← hn]

theorem usedAt_iff {v : Variable} {block : String} {masked : List Char} {n : Nat} :
    usedAt v block masked n = true ↔ Mentions v.name.toList masked ∧ ¬(v.block = block ∧ v.line = n) := by
  unfold usedAt
  rw [Bool.and_eq_true, mentions_iff, Bool.not_eq_true', ← Bool.not_eq_true, Bool.and_eq_true, decide_eq_true_iff,
    decide_eq_true_iff]

theorem line_of_useSite (v : Variable) (b : Block) (line : List Char) (n : Nat) (s : UseSite)
    (h : (if usedAt v b.id (mask line) n then some (⟨b.id, n⟩ : UseSite) else none) = some s) : s.line = n := by
  obtain ⟨-, hs⟩ := Option.ite_none_right_eq_some.1 h
  exact Option.some.inj hs ▸ rfl

theorem pairwise_usesIn (v : Variable) (b : Block) : (usesIn v b).Pairwise fun s s' => s.line < s'.line :=
  Block.pairwise_filterMap (line_of_useSite v b)

theorem mem_usesIn {v : Variable} {b : Block} {s : UseSite} : s ∈ usesIn v b ↔ s.block = b.id ∧
    ¬(v.block = b.id ∧ v.line = s.line) ∧ ∃ line, b.HasLine s.line line ∧ Mentions v.name.toList (mask line) := by
  refine (Block.mem_filterMap_iff_exists (line_of_useSite v b)).trans ?_
  constructor
  · rintro ⟨line, h, n, hn, hs⟩
    obtain ⟨hused, heq⟩ := Option.ite_none_right_eq_some.1 hs
    obtain rfl := Option.some.inj heq
    obtain ⟨hmentions, haway⟩ := usedAt_iff.1 hused
    exact ⟨rfl, haway, line, h, hmentions⟩
  · rintro ⟨hblock, haway, line, h, hmentions⟩
    obtain ⟨n, hn, -⟩ := Block.exists_mem_of_hasLine h
    rw [hn] at haway
    refine ⟨line, h, n, hn, ?_⟩
    rw [if_pos (usedAt_iff.2 ⟨hmentions, haway⟩), ← hn, ← hblock]

theorem pairwise_idxOf {bs : List Block} (hids : (bs.map (·.id)).Nodup) :
    bs.Pairwise fun b c => (bs.map (·.id)).idxOf b.id < (bs.map (·.id)).idxOf c.id := by
  rw [List.pairwise_iff_getElem]
  intro i j hi hj hlt
  have hplace : ∀ k (hk : k < bs.length), (bs.map (·.id)).idxOf bs[k].id = k := by
    intro k hk
    have hget := hids.idxOf_getElem k (by rwa [List.length_map])
    rwa [List.getElem_map] at hget
  rw [hplace i hi, hplace j hj]
  exact hlt

theorem usedOn_flatMap {bs : List Block} (hids : (bs.map (·.id)).Nodup) (v : Variable) :
    UsedOn bs v.name v (bs.flatMap (usesIn v)) := by
  constructor
  · refine List.pairwise_flatMap.2 ⟨fun b _ => ?_, (pairwise_idxOf hids).imp fun {b c} hlt s hs s' hs' => ?_⟩
    · refine (pairwise_usesIn v b).imp_of_mem fun {s s'} hs hs' hlt => Or.inr ⟨?_, hlt⟩
      rw [(mem_usesIn.1 hs).1, (mem_usesIn.1 hs').1]
    · rw [(mem_usesIn.1 hs).1, (mem_usesIn.1 hs').1]
      exact Or.inl hlt
  · intro s
    rw [List.mem_flatMap]
    constructor
    · rintro ⟨b, hb, hs⟩
      obtain ⟨hblock, haway, hline⟩ := mem_usesIn.1 hs
      exact ⟨hblock ▸ haway, b, hb, hblock, hline⟩
    · rintro ⟨haway, b, hb, hblock, hline⟩
      exact ⟨b, hb, mem_usesIn.2 ⟨hblock, hblock ▸ haway, hline⟩⟩

/-! ## All blocks -/

/-- The index of the speakers and variables of some blocks: the lines of each character counted, the spoken lines of
each block, and the uses of each variable. -/
structure Indexes (u : Usage) (t : Tables) (bs : List Block) : Prop where
  tags : u.spoken.keys = t.characters.keys
  counts : ∀ tag n, u.spoken.get? tag = some n → n = u.dialogue.values.flatten.countP (·.tag = tag)
  blocks : ∀ id ∈ u.dialogue.keys, ∃ b ∈ bs, b.id = id
  spoken : ∀ b ∈ bs, SpokenLines t b (u.dialogue.getD b.id [])
  names : u.uses.keys = t.vars.keys
  uses : ∀ name v, t.vars.get? name = some v → UsedOn bs name v (u.uses.getD name [])

section OfBlocks
variable {blocks : List Block} (settings : AnalysisSettings) (hids : (blocks.map (·.id)).Nodup)
include hids

theorem keys_spoken_ofBlocks : (Usage.ofBlocks blocks (Tables.ofBlocks blocks settings)).spoken.keys =
    (Tables.ofBlocks blocks settings).characters.keys := by
  rw [Usage.ofBlocks_eq settings hids, spoken_foldl_addBlock,
    Table.keys_foldl_update DialogueLine.tag 0 fun n _ => n + 1]
  · exact Table.keys_map _ _
  · intro d hd
    obtain ⟨b, -, hd⟩ := List.mem_flatMap.1 hd
    exact (Table.contains_map _ _ _).trans (contains_of_mem_spokenIn hd)

theorem keys_uses_ofBlocks : (Usage.ofBlocks blocks (Tables.ofBlocks blocks settings)).uses.keys =
    (Tables.ofBlocks blocks settings).vars.keys := by
  rw [Usage.ofBlocks_eq settings hids, uses_foldl_addBlock,
    Table.keys_foldl_update Prod.fst [] fun sites m => sites ++ [m.2]]
  · exact Table.keys_map _ _
  · intro m hm
    obtain ⟨b, -, hm⟩ := List.mem_flatMap.1 hm
    obtain ⟨v, hv, hname⟩ := exists_var_of_mem_mentionsIn hm
    have hget := (Table.mem_values_iff fun _ _ => name_of_get?_vars blocks settings).1 hv
    refine (Table.contains_map _ _ _).trans ?_
    rw [Table.contains, ← hname, hget]
    rfl

theorem flatten_dialogue_ofBlocks :
    (Usage.ofBlocks blocks (Tables.ofBlocks blocks settings)).dialogue.values.flatten =
      (readBlocks settings blocks).flatMap (spokenIn (Tables.ofBlocks blocks settings)) := by
  rw [Table.values, entries_dialogue_ofBlocks settings hids, List.map_filterMap, ← List.flatMap_id',
    List.filterMap_eq_flatMap_toList, List.flatMap_assoc]
  refine List.flatMap_congr fun b _ => ?_
  split <;> simp [*]

theorem getD_dialogue_ofBlocks {b : Block} (hb : b ∈ readBlocks settings blocks) :
    (Usage.ofBlocks blocks (Tables.ofBlocks blocks settings)).dialogue.getD b.id [] =
      spokenIn (Tables.ofBlocks blocks settings) b := by
  rw [Table.getD, Table.get?_of_entries (entries_dialogue_ofBlocks settings hids) (nodup_readBlocks settings hids) hb]
  split
  · rename_i hnil
    exact hnil.symm
  · rfl

end OfBlocks
end Usage

/-- The usage of a story indexes the blocks that are read. -/
theorem usage_indexes (settings : AnalysisSettings) {blocks : List Block} (hids : (blocks.map (·.id)).Nodup) :
    (Usage.ofBlocks blocks (Tables.ofBlocks blocks settings)).Indexes (Tables.ofBlocks blocks settings)
      (readBlocks settings blocks) := by
  constructor
  case tags => exact Usage.keys_spoken_ofBlocks settings hids
  case names => exact Usage.keys_uses_ofBlocks settings hids
  case counts =>
    intro tag n hn
    rw [Usage.get?_spoken_ofBlocks settings hids] at hn
    obtain ⟨c, -, rfl⟩ := Option.map_eq_some_iff.1 hn
    rw [Usage.flatten_dialogue_ofBlocks settings hids]
  case blocks =>
    intro id hid
    rw [Table.keys, Usage.entries_dialogue_ofBlocks settings hids] at hid
    obtain ⟨e, he, rfl⟩ := List.mem_map.1 hid
    obtain ⟨b, hb, he⟩ := List.mem_filterMap.1 he
    obtain ⟨ds, -, rfl⟩ := Option.map_eq_some_iff.1 he
    exact ⟨b, hb, rfl⟩
  case spoken =>
    intro b hb
    rw [Usage.getD_dialogue_ofBlocks settings hids hb]
    exact Usage.spokenLines_spokenIn (fun tag => isName_of_contains_characters) b
  case uses =>
    intro name v hv
    obtain rfl := name_of_get?_vars blocks settings hv
    rw [Table.getD, Usage.get?_uses_ofBlocks settings hids, hv]
    exact Usage.usedOn_flatMap (nodup_readBlocks settings hids) v

/-- Tea for one who speaks twice, with a variable that is named in a longer name, twice on a line, and in a literal. -/
def tea : List Block := [{ id := "a", content := "define e = Character(\"Eve\")\ndefault cup.size = 1\ne \"Tea.\"\n" },
  { id := "b", content := "$ cup.size = cup.size + 1\n$ teacup.size = 2\n e  \"My cup.size?\"\n" }]

theorem usage_indexes_tea : (tea.map (·.id)).Nodup ∧
    (Usage.ofBlocks tea (Tables.ofBlocks tea .usual)).Indexes (Tables.ofBlocks tea .usual) (readBlocks .usual tea) ∧
    (Tables.ofBlocks tea .usual).vars.get? "cup.size" = some ⟨.default, "cup.size", "1", "a", 2⟩ ∧
    UsedOn (readBlocks .usual tea) "cup.size" ⟨.default, "cup.size", "1", "a", 2⟩ [⟨"b", 1⟩] := by
  have hids : (tea.map (·.id)).Nodup := by decide
  have hget : (Tables.ofBlocks tea .usual).vars.get? "cup.size" = some ⟨.default, "cup.size", "1", "a", 2⟩ := by
    decide +kernel
  have hsites : (Usage.ofBlocks tea (Tables.ofBlocks tea .usual)).uses.getD "cup.size" [] = [⟨"b", 1⟩] := by
    decide +kernel
  have hindexes := usage_indexes .usual hids
  exact ⟨hids, hindexes, hget, hsites ▸ hindexes.uses _ _ hget⟩

end Plotline
