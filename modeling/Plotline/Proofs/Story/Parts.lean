import Plotline.Proofs.Route.Kept
import Plotline.Proofs.Story.Definitions
import Plotline.Proofs.Story.Roles

/-!
# The part of a project that a block belongs to

* `Behind`: one block comes behind another.
* `exists_last_iff`: a block has the last definition that fits if and only if it has one that fits and no block behind
  it has.
* `KeepsMenu`, `KeepsScreen`: some named menu, or screen, of a block has not been taken over by another definition.
* `IsStory`: a block is story by its path, by a plain label of its own, or by a menu that it keeps.
* `Roles.partOf_eq`: these decide which part of the project a block belongs to.
* `same_part_iff`: when a block belongs to the same part of two projects.
* `part_follows_later_screen`: a screen that another block defines again changes the part of the first block.
-/

namespace Plotline

/-! ## The last definition -/

/-- Block `c` comes behind block `b`. -/
def Behind (bs : List Block) (b c : Block) : Prop := ∃ front back, bs = front ++ b :: back ∧ c ∈ back

theorem Behind.mem {bs : List Block} {b c : Block} : Behind bs b c → c ∈ bs := by
  rintro ⟨front, back, rfl, hc⟩
  simp [hc]

theorem behind_iff {front back : List Block} {b c : Block} (hids : ((front ++ b :: back).map (·.id)).Nodup) :
    Behind (front ++ b :: back) b c ↔ c ∈ back := by
  have honce : ∀ {xs ys zs : List Block}, ¬ ((xs ++ b :: (ys ++ b :: zs)).map (·.id)).Nodup := by
    intro xs ys zs h
    simp [List.nodup_append] at h
  constructor
  · rintro ⟨front', back', h, hc⟩
    rcases split_cases rfl h with ⟨between, rfl⟩ | ⟨-, -, rfl⟩ | ⟨between, rfl⟩
    · rw [h, List.append_assoc] at hids
      exact absurd hids honce
    · exact hc
    · rw [List.append_assoc] at hids
      exact absurd hids honce
  · intro hc
    exact ⟨front, back, rfl, hc⟩

section Last
variable {α : Type} {definitions : Block → List α} {owner : α → String}
  (howner : ∀ c, ∀ a ∈ definitions c, owner a = c.id) (p : α → Bool)
include howner

/-- A block has the last definition that fits if and only if it has one that fits and no block behind it has. -/
theorem exists_last_iff {bs : List Block} (hids : (bs.map (·.id)).Nodup) {b : Block} (hb : b ∈ bs) :
    (∃ a, (bs.flatMap definitions).reverse.find? p = some a ∧ owner a = b.id) ↔
      (∃ a ∈ definitions b, p a = true) ∧ ∀ c, Behind bs b c → ∀ a ∈ definitions c, p a = false := by
  obtain ⟨front, back, rfl⟩ := List.append_of_mem hb
  have hsplit : ((front ++ b :: back).flatMap definitions).reverse.find? p =
      ((back.flatMap definitions).reverse.find? p).or
        (((definitions b).reverse.find? p).or ((front.flatMap definitions).reverse.find? p)) := by
    simp [List.find?_append]
  simp only [behind_iff hids]
  rw [hsplit]
  have hnot : ∀ c ∈ front ++ back, c.id ≠ b.id := by
    rw [List.map_append, List.map_cons, List.nodup_middle, List.nodup_cons, ← List.map_append] at hids
    intro c hc hid
    exact hids.1 (hid ▸ List.mem_map_of_mem hc)
  have hother : ∀ {cs : List Block} {a : α}, (∀ c ∈ cs, c ∈ front ++ back) →
      (cs.flatMap definitions).reverse.find? p = some a → owner a ≠ b.id := by
    intro cs a hcs ha
    obtain ⟨c, hc, hac⟩ := List.mem_flatMap.1 (List.mem_reverse.1 (List.mem_of_find?_eq_some ha))
    rw [howner c a hac]
    exact hnot c (hcs c hc)
  constructor
  · rintro ⟨a, ha, hown⟩
    rcases Option.or_eq_some_iff.1 ha with ha | ⟨hback, ha⟩
    · exact absurd hown (hother (fun c hc => List.mem_append_right front hc) ha)
    · rcases Option.or_eq_some_iff.1 ha with ha | ⟨-, ha⟩
      · refine ⟨⟨a, List.mem_reverse.1 (List.mem_of_find?_eq_some ha), List.find?_some ha⟩, fun c hc a' ha' => ?_⟩
        have hnone := List.find?_eq_none.1 hback a' (List.mem_reverse.2 (List.mem_flatMap.2 ⟨c, hc, ha'⟩))
        simpa using hnone
      · exact absurd hown (hother (fun c hc => List.mem_append_left back hc) ha)
  · rintro ⟨⟨a, ha, hp⟩, hback⟩
    have hnone : (back.flatMap definitions).reverse.find? p = none := by
      rw [List.find?_eq_none]
      intro a' ha'
      obtain ⟨c, hc, ha'⟩ := List.mem_flatMap.1 (List.mem_reverse.1 ha')
      simp [hback c hc a' ha']
    obtain ⟨a', ha'⟩ := Option.isSome_iff_exists.1
      (List.find?_isSome.2 ⟨a, List.mem_reverse.2 ha, hp⟩ : ((definitions b).reverse.find? p).isSome = true)
    refine ⟨a', by rw [hnone, ha']; rfl, ?_⟩
    exact howner b a' (List.mem_reverse.1 (List.mem_of_find?_eq_some ha'))

end Last

/-! ## What a block keeps of its names -/

/-- Some named menu of a block still stands for its name: no plain label has the name, nor has a named menu of a block
behind it. -/
def KeepsMenu (bs : List Block) (b : Block) : Prop :=
  ∃ m ∈ b.namedMenus, (∀ c ∈ bs, ∀ s ∈ c.plainLabels, s.label ≠ m.label) ∧
    ∀ c, Behind bs b c → ∀ s ∈ c.namedMenus, s.label ≠ m.label

/-- Some screen of a block still stands for its name: no block behind it defines a screen of that name. -/
def KeepsScreen (bs : List Block) (b : Block) : Prop :=
  ∃ s ∈ b.facts.screens, ∀ c, Behind bs b c → ∀ s' ∈ c.facts.screens, s'.name ≠ s.name

def IsStory (settings : AnalysisSettings) (bs : List Block) (b : Block) : Prop :=
  settings.isStoryPath b.path = true ∨ b.plainLabels ≠ [] ∨ KeepsMenu bs b

section OfBlocks
variable {blocks : List Block} {settings : AnalysisSettings} (hids : (blocks.map (·.id)).Nodup) {b : Block}
  (hb : b ∈ readBlocks settings blocks)
include hids hb

theorem any_screens_iff : (Tables.ofBlocks blocks settings).screens.values.any (·.block = b.id) = true ↔
    KeepsScreen (readBlocks settings blocks) b := by
  have hlast : ∀ name, (∃ s, (Tables.ofBlocks blocks settings).screens.get? name = some s ∧ s.block = b.id) ↔
      (∃ s ∈ b.facts.screens, s.name = name) ∧
        ∀ c, Behind (readBlocks settings blocks) b c → ∀ s ∈ c.facts.screens, s.name ≠ name := by
    intro name
    simp only [get?_screens_ofBlocks]
    simpa using exists_last_iff (fun c s => block_of_mem_screens) (fun s => decide (s.name = name))
      (nodup_readBlocks settings hids) hb
  rw [List.any_eq_true]
  constructor
  · rintro ⟨s, hs, hblock⟩
    obtain ⟨name, hget⟩ := Table.mem_values.1 hs
    obtain ⟨⟨s', hs', rfl⟩, hbehind⟩ := (hlast name).1 ⟨s, hget, of_decide_eq_true hblock⟩
    exact ⟨s', hs', hbehind⟩
  · rintro ⟨s, hs, hbehind⟩
    obtain ⟨s', hget, hblock⟩ := (hlast s.name).2 ⟨⟨s, hs, rfl⟩, hbehind⟩
    exact ⟨s', Table.mem_values.2 ⟨s.name, hget⟩, decide_eq_true hblock⟩

/-- A block keeps a menu if and only if the table of labels has one of its menus. -/
theorem keepsMenu_iff : KeepsMenu (readBlocks settings blocks) b ↔
    ∃ name s, (Tables.ofBlocks blocks settings).labels.get? name = some s ∧ s.block = b.id ∧ s.kind = .menu := by
  have hlast := fun name => exists_last_iff (fun c s => Block.block_of_mem_labels)
    (fun s : LabelSite => decide (s.label = name)) (nodup_readBlocks settings hids) hb
  constructor
  · rintro ⟨m, hm, hplain, hbehind⟩
    obtain ⟨hmem, hkind⟩ := Block.mem_namedMenus.1 hm
    have hnone : ((readBlocks settings blocks).flatMap (·.facts.labels)).reverse.find?
        (fun s => s.label = m.label && s.kind = .label) = none := by
      rw [List.find?_eq_none]
      intro s hs hfits
      obtain ⟨c, hc, hs⟩ := List.mem_flatMap.1 (List.mem_reverse.1 hs)
      simp only [Bool.and_eq_true, decide_eq_true_eq] at hfits
      exact hplain c hc s (Block.mem_plainLabels.2 ⟨hs, hfits.2⟩) hfits.1
    have hlater : ∀ c, Behind (readBlocks settings blocks) b c → ∀ s ∈ c.facts.labels,
        decide (s.label = m.label) = false := by
      intro c hc s hs
      rw [decide_eq_false_iff_not]
      cases hkind : s.kind with
      | label => exact hplain c hc.mem s (Block.mem_plainLabels.2 ⟨hs, hkind⟩)
      | menu => exact hbehind c hc s (Block.mem_namedMenus.2 ⟨hs, hkind⟩)
    obtain ⟨s, hs, hblock⟩ := (hlast m.label).2 ⟨⟨m, hmem, decide_eq_true rfl⟩, hlater⟩
    refine ⟨m.label, s, by rw [get?_labels_ofBlocks, lastSite?, hnone, Option.none_or, hs], hblock, ?_⟩
    -- A plain label of that name would have been found.
    cases hkind : s.kind with
    | menu => rfl
    | label =>
        refine absurd ?_ (List.find?_eq_none.1 hnone s (List.mem_of_find?_eq_some hs))
        simpa [hkind] using List.find?_some hs
  · rintro ⟨name, s, hs, hblock, hkind⟩
    have hmem := (readFrom_analysis blocks settings hids).mem_labels_of_block_eq hb hs hblock
    rw [get?_labels_ofBlocks] at hs
    have hnone : ((readBlocks settings blocks).flatMap (·.facts.labels)).reverse.find?
        (fun s => s.label = name && s.kind = .label) = none := by
      have hany := any_lastSite? ((readBlocks settings blocks).flatMap (·.facts.labels)) name
      rw [hs, Option.any_some, hkind] at hany
      simpa using hany.symm
    rw [lastSite?, hnone, Option.none_or] at hs
    obtain ⟨-, hbehind⟩ := (hlast name).1 ⟨s, hs, hblock⟩
    obtain rfl : s.label = name := by simpa using List.find?_some hs
    refine ⟨s, Block.mem_namedMenus.2 ⟨hmem, hkind⟩, fun c hc t ht hname => ?_, fun c hc t ht => ?_⟩
    · obtain ⟨ht, hlabel⟩ := Block.mem_plainLabels.1 ht
      refine List.find?_eq_none.1 hnone t (List.mem_reverse.2 (List.mem_flatMap.2 ⟨c, hc, ht⟩)) ?_
      simp [hname, hlabel]
    · simpa using hbehind c hc t (Block.mem_namedMenus.1 ht).1

theorem any_labels_iff : ((Tables.ofBlocks blocks settings).labels.values.any (·.block = b.id) ||
    (Tables.ofBlocks blocks settings).firstLabels.contains b.id) = true ↔
      b.plainLabels ≠ [] ∨ KeepsMenu (readBlocks settings blocks) b := by
  rw [Bool.or_eq_true, contains_firstLabels_iff hids hb, List.any_eq_true, keepsMenu_iff hids hb]
  constructor
  · rintro (⟨s, hs, hblock⟩ | hplain)
    · obtain ⟨name, hget⟩ := Table.mem_values.1 hs
      cases hkind : s.kind with
      | menu => exact Or.inr ⟨name, s, hget, of_decide_eq_true hblock, hkind⟩
      | label =>
          have hmem := (readFrom_analysis blocks settings hids).mem_labels_of_block_eq hb hget
            (of_decide_eq_true hblock)
          exact Or.inl (List.ne_nil_of_mem (Block.mem_plainLabels.2 ⟨hmem, hkind⟩))
    · exact Or.inl hplain
  · rintro (hplain | ⟨name, s, hget, hblock, -⟩)
    · exact Or.inr hplain
    · exact Or.inl ⟨s, Table.mem_values.2 ⟨name, hget⟩, decide_eq_true hblock⟩

open Classical in
theorem Roles.partOf_eq : partOf (Tables.ofBlocks blocks settings) settings b =
    if IsStory settings (readBlocks settings blocks) b then .story
    else if KeepsScreen (readBlocks settings blocks) b then .screenOnly else .config := by
  have hstory : ((Tables.ofBlocks blocks settings).labels.values.any (·.block = b.id) ||
      (Tables.ofBlocks blocks settings).firstLabels.contains b.id || settings.isStoryPath b.path) = true ↔
        IsStory settings (readBlocks settings blocks) b := by
    rw [Bool.or_eq_true, any_labels_iff hids hb, or_comm]
    rfl
  unfold partOf
  simp only [hstory, any_screens_iff hids hb]

end OfBlocks

/-! ## Blocks of two projects -/

/-- A block belongs to the same part of two projects. -/
structure Roles.SamePart (r r' : Roles) (id : String) : Prop where
  story : id ∈ r.story.members ↔ id ∈ r'.story.members
  screenOnly : id ∈ r.screenOnly.members ↔ id ∈ r'.screenOnly.members
  config : id ∈ r.config.members ↔ id ∈ r'.config.members

section Projects
variable {xs ys : List Block} {settings : AnalysisSettings} {b : Block}

theorem Roles.samePart_iff (hxs : (xs.map (·.id)).Nodup) (hys : (ys.map (·.id)).Nodup) (hx : b ∈ xs) (hy : b ∈ ys) :
    (Analysis.ofBlocks xs settings).roles.SamePart (Analysis.ofBlocks ys settings).roles b.id ↔
      partOf (Tables.ofBlocks xs settings) settings b = partOf (Tables.ofBlocks ys settings) settings b := by
  have hmem : ∀ part, (decide (partOf (Tables.ofBlocks xs settings) settings b = part) = true ↔
      decide (partOf (Tables.ofBlocks ys settings) settings b = part) = true) ↔
        (partOf (Tables.ofBlocks xs settings) settings b = part ↔
          partOf (Tables.ofBlocks ys settings) settings b = part) := by
    intro part
    rw [decide_eq_true_eq, decide_eq_true_eq]
  unfold Analysis.ofBlocks
  simp only [Roles.ofBlocks_eq]
  constructor
  · rintro ⟨hstory, hscreen, hconfig⟩
    rw [id_mem_idsWhere hxs hx, id_mem_idsWhere hys hy, hmem] at hstory hscreen hconfig
    cases hpart : partOf (Tables.ofBlocks xs settings) settings b with
    | story => exact (hstory.1 hpart).symm
    | screenOnly => exact (hscreen.1 hpart).symm
    | config => exact (hconfig.1 hpart).symm
  · intro hpart
    constructor <;> rw [id_mem_idsWhere hxs hx, id_mem_idsWhere hys hy, hpart]

/-- **When a block belongs to the same part of two projects.** A block that is not ignored is story in both or in
neither, by its path, a plain label of its own or a menu that it keeps, and if in neither, it keeps a screen in both or
in neither. -/
theorem same_part_iff (hxs : (xs.map (·.id)).Nodup) (hys : (ys.map (·.id)).Nodup) (hx : b ∈ xs) (hy : b ∈ ys)
    (hread : settings.ignores b.path = false) :
    (Analysis.ofBlocks xs settings).roles.SamePart (Analysis.ofBlocks ys settings).roles b.id ↔
      (IsStory settings (readBlocks settings xs) b ↔ IsStory settings (readBlocks settings ys) b) ∧
        (¬ IsStory settings (readBlocks settings xs) b →
          (KeepsScreen (readBlocks settings xs) b ↔ KeepsScreen (readBlocks settings ys) b)) := by
  classical
  have hbx : b ∈ readBlocks settings xs := mem_readBlocks_iff.2 ⟨hx, hread⟩
  have hby : b ∈ readBlocks settings ys := mem_readBlocks_iff.2 ⟨hy, hread⟩
  rw [Roles.samePart_iff hxs hys hx hy, Roles.partOf_eq hxs hbx, Roles.partOf_eq hys hby]
  by_cases hstory : IsStory settings (readBlocks settings xs) b <;>
    by_cases hstory' : IsStory settings (readBlocks settings ys) b <;>
      by_cases hscreen : KeepsScreen (readBlocks settings xs) b <;>
        by_cases hscreen' : KeepsScreen (readBlocks settings ys) b <;>
          simp [hstory, hstory', hscreen, hscreen']

end Projects

def market : Block := { id := "m", content := "menu pick:\n \"Bread.\"\n" }

/-- A tavern whose choice has the name of the one at the market, and whose sign is a screen. -/
def tavern : Block := { id := "t", content := "menu pick:\n \"Soup.\"\nscreen sign():\n pass\n" }

theorem same_part_iff_tavern :
    (([tavern].map (·.id)).Nodup ∧ ([market, tavern].map (·.id)).Nodup ∧ tavern ∈ [tavern] ∧ tavern ∈ [market, tavern] ∧
      AnalysisSettings.usual.ignores tavern.path = false) ∧
      (Analysis.ofBlocks [tavern] .usual).roles.SamePart
        (Analysis.ofBlocks [market, tavern] .usual).roles tavern.id := by
  have hids : ([market, tavern].map (·.id)).Nodup := by decide
  have hmenu : (⟨"t", "pick", 1, 6, .menu⟩ : LabelSite) ∈ tavern.namedMenus := by decide +kernel
  have hplain : ∀ c ∈ [market, tavern], ∀ s ∈ c.plainLabels, s.label ≠ "pick" := by decide +kernel
  have hread : readBlocks .usual [tavern] = [tavern] := List.filter_eq_self.2 (by decide +kernel)
  have hread' : readBlocks .usual [market, tavern] = [market, tavern] := List.filter_eq_self.2 (by decide +kernel)
  have halone : KeepsMenu [tavern] tavern := by
    refine ⟨_, hmenu, fun c hc => hplain c (List.mem_cons_of_mem market hc), fun c hc => ?_⟩
    exact absurd ((@behind_iff [] [] tavern c (by decide)).1 hc) List.not_mem_nil
  have hlast : KeepsMenu [market, tavern] tavern := by
    refine ⟨_, hmenu, hplain, fun c hc => ?_⟩
    exact absurd ((@behind_iff [market] [] tavern c hids).1 hc) List.not_mem_nil
  have hsame := @same_part_iff [tavern] [market, tavern] .usual tavern (by decide) hids (by simp) (by simp)
    (by decide +kernel)
  rw [hread, hread'] at hsame
  refine ⟨⟨by decide, hids, by simp, by simp, by decide +kernel⟩, hsame.2 ⟨?_, fun hnot => ?_⟩⟩
  · exact iff_of_true (Or.inr (Or.inr halone)) (Or.inr (Or.inr hlast))
  · exact absurd (Or.inr (Or.inr halone)) hnot

/-- A map that is drawn on the screen, once in each of two blocks. -/
def mapScreens : List Block :=
  [{ id := "a", content := "screen map():\n" }, { id := "b", content := "screen map():\n" }]

/-- A block with nothing but a screen is set aside as configuration as soon as another block defines the screen
again. -/
theorem part_follows_later_screen : ¬ ∀ (settings : AnalysisSettings) (xs ys : List Block) (b : Block),
    (xs.map (·.id)).Nodup → (ys.map (·.id)).Nodup → b ∈ xs → b ∈ ys → settings.ignores b.path = false →
      (Analysis.ofBlocks xs settings).roles.SamePart (Analysis.ofBlocks ys settings).roles b.id := by
  intro hall
  have hsame := hall .usual (mapScreens.take 1) mapScreens { id := "a", content := "screen map():\n" } (by decide)
    (by decide) (by simp [mapScreens]) (by simp [mapScreens]) (by decide +kernel)
  have halone : "a" ∈ (Analysis.ofBlocks (mapScreens.take 1) .usual).roles.screenOnly.members := by decide +kernel
  have hboth : "a" ∉ (Analysis.ofBlocks mapScreens .usual).roles.screenOnly.members := by decide +kernel
  exact hboth (hsame.screenOnly.1 halone)

end Plotline
