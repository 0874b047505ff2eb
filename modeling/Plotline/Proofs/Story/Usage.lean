import Mathlib.Data.Nat.SuccPred
import Plotline.Proofs.Story.Definitions

/-!
# Who speaks in a story and what is used

* `Usage.spokenIn`, `Usage.usesIn`: the lines of a block that characters speak, and those that mention a variable.
* `Usage.get?_spoken_ofBlocks`: the lines of a character are counted over all blocks that are read.
* `Usage.entries_dialogue_ofBlocks`: the spoken lines of each block that has some.
* `Usage.get?_uses_ofBlocks`: a variable is used on the lines that mention it, block by block.
-/

namespace Plotline
open Script

namespace Usage
variable (t : Tables)

/-- The lines of a block that characters speak, from top to bottom. -/
def spokenIn (b : Block) : List DialogueLine :=
  b.numberedLines.filterMap fun l => (speakerOf t l.1).map fun tag => ⟨l.2, tag⟩

/-- The lines of a block that mention a variable away from its definition, from top to bottom. -/
def usesIn (v : Variable) (b : Block) : List UseSite :=
  b.numberedLines.filterMap fun l => if usedAt v b.id (mask l.1) l.2 then some ⟨b.id, l.2⟩ else none

def mentionsIn (b : Block) : List (String × UseSite) :=
  b.numberedLines.flatMap fun l =>
    (t.vars.values.filter (usedAt · b.id (mask l.1) l.2)).map fun v => (v.name, ⟨b.id, l.2⟩)

/-! ## One block -/

theorem dialogue_addBlock (u : Usage) (b : Block) : (addBlock t u b).dialogue =
    (spokenIn t b).foldl (fun d x => d.update b.id [] (· ++ [x])) u.dialogue := by
  unfold addBlock spokenIn
  rw [List.foldl_filterMap]
  refine (List.foldl_hom Usage.dialogue fun u l => ?_).symm
  unfold addLine
  cases speakerOf t l.1 <;> rfl

theorem spoken_addBlock (u : Usage) (b : Block) : (addBlock t u b).spoken =
    (spokenIn t b).foldl (fun s x => s.update x.tag 0 (· + 1)) u.spoken := by
  unfold addBlock spokenIn
  rw [List.foldl_filterMap]
  refine (List.foldl_hom Usage.spoken fun u l => ?_).symm
  unfold addLine
  cases speakerOf t l.1 <;> rfl

theorem uses_addBlock (u : Usage) (b : Block) : (addBlock t u b).uses =
    (mentionsIn t b).foldl (fun us m => us.update m.1 [] (· ++ [m.2])) u.uses := by
  unfold addBlock mentionsIn
  rw [List.foldl_flatMap]
  refine (List.foldl_hom Usage.uses fun u l => ?_).symm
  rw [List.foldl_map]
  unfold addLine
  cases speakerOf t l.1 <;> rfl

theorem foldl_concat {α β : Type} (f : α → β) (xs : List α) (ys : List β) :
    xs.foldl (fun ys x => ys ++ [f x]) ys = ys ++ xs.map f := by
  rw [List.foldl_append_eq_append, ← List.flatMap_def, ← List.map_eq_flatMap]

/-! ## All blocks -/

theorem spoken_foldl_addBlock (bs : List Block) (u : Usage) : (bs.foldl (addBlock t) u).spoken =
    (bs.flatMap (spokenIn t)).foldl (fun s x => s.update x.tag 0 (· + 1)) u.spoken := by
  rw [List.foldl_flatMap]
  exact (List.foldl_hom Usage.spoken fun u b => (spoken_addBlock t u b).symm).symm

theorem uses_foldl_addBlock (bs : List Block) (u : Usage) : (bs.foldl (addBlock t) u).uses =
    (bs.flatMap (mentionsIn t)).foldl (fun us m => us.update m.1 [] (· ++ [m.2])) u.uses := by
  rw [List.foldl_flatMap]
  exact (List.foldl_hom Usage.uses fun u b => (uses_addBlock t u b).symm).symm

theorem entries_dialogue_foldl_addBlock (bs : List Block) (hids : (bs.map (·.id)).Nodup) :
    (bs.foldl (addBlock t) (start t)).dialogue.entries = bs.filterMap fun b =>
      (if spokenIn t b = [] then none else some (spokenIn t b)).map fun xs => (b.id, xs) := by
  have hdialogue : (bs.foldl (addBlock t) (start t)).dialogue =
      bs.foldl (fun d b => (spokenIn t b).foldl (fun d x => d.update b.id [] (· ++ [x])) d) ∅ :=
    (List.foldl_hom Usage.dialogue fun u b => (dialogue_addBlock t u b).symm).symm
  rw [hdialogue, Table.foldl_step_entries (fun b : Block => b.id)
    fun b => if spokenIn t b = [] then none else some (spokenIn t b)]
  · rfl
  · intro d b hb
    rw [Table.entries_foldl_update_new hb [] fun ys x => ys ++ [x], foldl_concat fun x => x, List.map_id']
    rfl
  · exact hids

theorem contains_of_speakerOf {line : List Char} {tag : String} (h : speakerOf t line = some tag) :
    t.characters.contains tag = true := by
  unfold speakerOf dialogue? at h
  split at h
  · rename_i found hfound
    obtain rfl := Option.some.inj h
    exact (Option.filter_eq_some_iff.1 hfound).2
  · cases hnarration : narration? line with
    | none => rw [hnarration] at h; cases h
    | some r => rw [hnarration] at h; cases h

variable {t}

theorem contains_of_mem_spokenIn {b : Block} {d : DialogueLine} (h : d ∈ spokenIn t b) :
    t.characters.contains d.tag = true := by
  obtain ⟨l, -, h⟩ := List.mem_filterMap.1 h
  obtain ⟨tag, htag, rfl⟩ := Option.map_eq_some_iff.1 h
  exact contains_of_speakerOf t htag

theorem exists_var_of_mem_mentionsIn {b : Block} {m : String × UseSite} (h : m ∈ mentionsIn t b) :
    ∃ v ∈ t.vars.values, v.name = m.1 := by
  obtain ⟨l, -, h⟩ := List.mem_flatMap.1 h
  obtain ⟨v, hv, rfl⟩ := List.mem_map.1 h
  exact ⟨v, (List.mem_filter.1 hv).1, rfl⟩

theorem filter_mentionsIn (hnames : ∀ name v, t.vars.get? name = some v → v.name = name) {v : Variable}
    (hv : v ∈ t.vars.values) (b : Block) : ((mentionsIn t b).filter (·.1 = v.name)).map (·.2) = usesIn v b := by
  have hkeys : t.vars.values.map Variable.name = t.vars.keys := Table.map_key_values hnames
  have hone : t.vars.values.filter (·.name = v.name) = [v] := filter_key_eq Variable.name (hkeys ▸ t.vars.nodup) hv
  unfold mentionsIn usesIn
  rw [List.filter_flatMap, List.map_flatMap, List.filterMap_eq_flatMap_toList]
  refine List.flatMap_congr fun l _ => ?_
  have hname : ((fun m : String × UseSite => decide (m.1 = v.name)) ∘
      fun v : Variable => (v.name, ⟨b.id, (l.2 : Int)⟩)) =
      fun w => decide (w.name = v.name) := rfl
  rw [List.filter_map, hname, List.filter_comm, hone, List.filter_cons]
  split <;> rfl

end Usage

section OfBlocks
variable {blocks : List Block} (settings : AnalysisSettings) (hids : (blocks.map (·.id)).Nodup)
include hids
open Usage

theorem Usage.ofBlocks_eq : Usage.ofBlocks blocks (Tables.ofBlocks blocks settings) =
    (readBlocks settings blocks).foldl (addBlock (Tables.ofBlocks blocks settings))
      (start (Tables.ofBlocks blocks settings)) := by
  unfold Usage.ofBlocks
  rw [filter_hasScanned hids]

theorem Usage.entries_dialogue_ofBlocks :
    (Usage.ofBlocks blocks (Tables.ofBlocks blocks settings)).dialogue.entries =
      (readBlocks settings blocks).filterMap fun b =>
        (if spokenIn (Tables.ofBlocks blocks settings) b = [] then none
          else some (spokenIn (Tables.ofBlocks blocks settings) b)).map fun xs => (b.id, xs) := by
  rw [Usage.ofBlocks_eq settings hids]
  exact entries_dialogue_foldl_addBlock _ _ (nodup_readBlocks settings hids)

theorem Usage.get?_spoken_ofBlocks (tag : String) :
    (Usage.ofBlocks blocks (Tables.ofBlocks blocks settings)).spoken.get? tag =
      ((Tables.ofBlocks blocks settings).characters.get? tag).map fun _ =>
        ((readBlocks settings blocks).flatMap (spokenIn (Tables.ofBlocks blocks settings))).countP (·.tag = tag) := by
  have hcount : ∀ (xs : List DialogueLine) (n : Nat), xs.foldl (fun m _ => m + 1) n = n + xs.length :=
    fun xs n => (List.foldl_const Nat.succ n xs).trans (Nat.succ_iterate n xs.length)
  rw [Usage.ofBlocks_eq settings hids, spoken_foldl_addBlock,
    Table.get?_foldl_update DialogueLine.tag 0 (fun n _ => n + 1), hcount, List.countP_eq_length_filter]
  have hstart : (start (Tables.ofBlocks blocks settings)).spoken.get? tag =
      ((Tables.ofBlocks blocks settings).characters.get? tag).map fun _ => 0 := Table.get?_map _ _ _
  rw [Table.getD, hstart]
  cases hcharacter : (Tables.ofBlocks blocks settings).characters.get? tag with
  | some c =>
      simp only [Option.map_some, Option.getD_some, Nat.zero_add]
      split
      · rename_i hnil
        rw [hnil]
        rfl
      · rfl
  | none =>
      rw [if_pos]
      · rfl
      · rw [List.filter_eq_nil_iff]
        intro x hx htag
        obtain ⟨b, -, hx⟩ := List.mem_flatMap.1 hx
        have hcontains := contains_of_mem_spokenIn hx
        rw [of_decide_eq_true htag, Table.contains, hcharacter] at hcontains
        cases hcontains

/-- A variable is used on the lines that mention it, block by block. -/
theorem Usage.get?_uses_ofBlocks (name : String) :
    (Usage.ofBlocks blocks (Tables.ofBlocks blocks settings)).uses.get? name =
      ((Tables.ofBlocks blocks settings).vars.get? name).map fun v =>
        (readBlocks settings blocks).flatMap (usesIn v) := by
  have hnames : ∀ name v, (Tables.ofBlocks blocks settings).vars.get? name = some v → v.name = name :=
    fun _ _ => name_of_get?_vars blocks settings
  have hstart : (start (Tables.ofBlocks blocks settings)).uses.get? name =
      ((Tables.ofBlocks blocks settings).vars.get? name).map fun _ => [] := Table.get?_map _ _ _
  rw [Usage.ofBlocks_eq settings hids, uses_foldl_addBlock,
    Table.get?_foldl_update Prod.fst [] (fun sites m => sites ++ [m.2]), Table.getD, hstart]
  cases hget : (Tables.ofBlocks blocks settings).vars.get? name with
  | none =>
      rw [if_pos]
      · rfl
      · rw [List.filter_eq_nil_iff]
        intro m hm hname
        obtain ⟨b, -, hm⟩ := List.mem_flatMap.1 hm
        obtain ⟨v, hv, hvname⟩ := exists_var_of_mem_mentionsIn hm
        have hvalue := (Table.mem_values_iff hnames).1 hv
        rw [hvname, of_decide_eq_true hname, hget] at hvalue
        cases hvalue
  | some v =>
      have hv : v ∈ (Tables.ofBlocks blocks settings).vars.values :=
        (Table.mem_values_iff hnames).2 (hnames name v hget ▸ hget)
      have hmentions : (((readBlocks settings blocks).flatMap (mentionsIn (Tables.ofBlocks blocks settings))).filter
          (·.1 = name)).map (·.2) = (readBlocks settings blocks).flatMap (usesIn v) := by
        rw [List.filter_flatMap, List.map_flatMap]
        refine List.flatMap_congr fun b _ => ?_
        rw [← hnames name v hget]
        exact filter_mentionsIn hnames hv b
      simp only [Option.map_some, Option.getD_some]
      rw [← hmentions, foldl_concat Prod.snd, List.nil_append]
      split
      · rename_i hnil
        rw [hnil]
        rfl
      · rfl

end OfBlocks
end Plotline
