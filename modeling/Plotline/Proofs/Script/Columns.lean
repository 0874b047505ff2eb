import Plotline.Proofs.Script.Jump
import Plotline.Proofs.Script.Literals
import Plotline.Proofs.Story.Headers

/-!
# Lines and columns

* `HasJump`: a text begins with a jump, whose target is the first name or, behind the word for a computed target, the
  dotted name after it.
* `JumpSite.LiesIn`: the target of a jump is the text between its columns.
* `pairwise_jumpsFrom`: of two jumps of a line, the target of the first ends before the target of the second begins.
* `Block.HasLine`: the lines of a block are its pieces between line feeds.
* `columns_point_at_text`: every jump, call, label and named menu that a block reports stands where it says.
-/

namespace Plotline
namespace Script
open Text

/-! ## A jump at the head of a text -/

/-- One or more blanks. -/
def IsGap (s : List Char) : Prop := s ≠ [] ∧ ∀ c ∈ s, isBlank c = true

theorem exists_gap_of_afterBlanks? {s r : List Char} (h : afterBlanks? s = some r) :
    ∃ gap, IsGap gap ∧ s = gap ++ r := by
  cases s with
  | nil => cases h
  | cons c s =>
      rw [afterBlanks?_cons] at h
      split at h
      · rename_i hc
        refine ⟨c :: s.takeWhile isBlank, ⟨List.cons_ne_nil _ _, fun d hd => ?_⟩, ?_⟩
        · rcases List.mem_cons.1 hd with rfl | hd
          · exact hc
          · exact List.all_eq_true.1 List.all_takeWhile d hd
        · rw [← Option.some.inj h, List.cons_append]
          unfold skipBlanks
          rw [List.takeWhile_append_dropWhile]
      · cases h

theorem exists_run_of_run? {p : Char → Bool} {s n r : List Char} (h : run? p s = some (n, r)) :
    n ≠ [] ∧ (∀ c ∈ n, p c = true) ∧ s = n ++ r := by
  obtain ⟨rfl, rfl, hn⟩ := run?_eq_some h
  exact ⟨hn, List.all_eq_true.1 List.all_takeWhile, List.takeWhile_append_dropWhile.symm⟩

/-- A text begins with a jump, whose first name ends after so many characters. -/
inductive HasJump : List Char → JumpSite → Nat → Prop
  | named (kind : JumpKind) {gap n : List Char} (rest : List Char) : IsGap gap → n ≠ [] →
      (∀ c ∈ n, isNameChar c = true) →
      HasJump (kind.keyword.toList ++ gap ++ n ++ rest)
        ⟨kind, String.ofList n, (kind.keyword.toList ++ gap).length, (kind.keyword.toList ++ gap ++ n).length,
          n = dynamicWord⟩
        (kind.keyword.toList ++ gap ++ n).length
  | computed (kind : JumpKind) {gap gap' m : List Char} (rest : List Char) : IsGap gap → IsGap gap' → m ≠ [] →
      (∀ c ∈ m, isDottedChar c = true) →
      HasJump (kind.keyword.toList ++ gap ++ dynamicWord ++ gap' ++ m ++ rest)
        ⟨kind, String.ofList m, (kind.keyword.toList ++ gap ++ dynamicWord ++ gap').length,
          (kind.keyword.toList ++ gap ++ dynamicWord ++ gap' ++ m).length, true⟩
        (kind.keyword.toList ++ gap ++ dynamicWord).length

theorem hasJump_of_jumpAt? {s : List Char} {site : JumpSite} {width : Nat} (h : jumpAt? s = some (site, width)) :
    HasJump s site width := by
  simp only [jumpAt?, Option.bind_eq_bind, Option.bind_eq_some_iff] at h
  obtain ⟨⟨kind, r⟩, hkey, named, hnamed, ⟨n, rest⟩, hname, h⟩ := h
  obtain rfl := jumpKeyword?_eq_some_iff.1 hkey
  obtain ⟨gap, hgap, rfl⟩ := exists_gap_of_afterBlanks? hnamed
  obtain ⟨hn, hchars, rfl⟩ := exists_run_of_run? hname
  have hstart : (kind.keyword.toList ++ (gap ++ (n ++ rest))).length - (n ++ rest).length =
      (kind.keyword.toList ++ gap).length := by
    simp only [List.length_append]
    omega
  have hwidth : (kind.keyword.toList ++ (gap ++ (n ++ rest))).length - rest.length =
      (kind.keyword.toList ++ gap ++ n).length := by
    simp only [List.length_append]
    omega
  simp only [hstart, hwidth] at h
  have hplain := HasJump.named kind rest hgap hn hchars
  simp only [List.append_assoc] at hplain h ⊢
  split at h
  · rename_i hword
    cases hcomputed : computedTarget? rest with
    | none =>
        rw [hcomputed] at h
        obtain ⟨rfl, rfl⟩ := Prod.mk.inj (Option.some.inj h)
        simpa [hword] using hplain
    | some e =>
        obtain ⟨tail, m, after⟩ := e
        rw [hcomputed] at h
        obtain ⟨rfl, rfl⟩ := Prod.mk.inj (Option.some.inj h)
        simp only [computedTarget?, Option.bind_eq_bind, Option.bind_eq_some_iff] at hcomputed
        obtain ⟨tail', htail, ⟨m', after'⟩, hrun, heq⟩ := hcomputed
        obtain ⟨rfl, rfl, rfl⟩ := (Prod.mk.inj (Option.some.inj heq)).imp_right Prod.mk.inj
        obtain ⟨gap', hgap', rfl⟩ := exists_gap_of_afterBlanks? htail
        obtain ⟨hm, hdotted, rfl⟩ := exists_run_of_run? hrun
        subst hword
        have hjump := HasJump.computed kind after' hgap hgap' hm hdotted
        simp only [List.append_assoc, List.length_append] at hjump ⊢
        convert hjump using 2 <;> omega
  · rename_i hword
    obtain ⟨rfl, rfl⟩ := Prod.mk.inj (Option.some.inj h)
    simpa [hword] using hplain

/-- The target of a jump is a name, and stands between its columns in a text that begins at `offset`. -/
structure JumpSite.LiesIn (site : JumpSite) (offset : Nat) (s : List Char) : Prop where
  span : ∃ u v, s = u ++ site.target.toList ++ v ∧ site.start = offset + u.length ∧
    site.stop = offset + u.length + site.target.toList.length
  ne_nil : site.target.toList ≠ []
  dotted : ∀ c ∈ site.target.toList, isDottedChar c = true

theorem liesIn_append (kind : JumpKind) (u : List Char) {t : List Char} (v : List Char) (dynamic : Bool) (ht : t ≠ [])
    (hdotted : ∀ c ∈ t, isDottedChar c = true) :
    JumpSite.LiesIn ⟨kind, String.ofList t, u.length, (u ++ t).length, dynamic⟩ 0 (u ++ t ++ v) := by
  refine ⟨⟨u, v, ?_, ?_, ?_⟩, ?_, ?_⟩
  · rw [String.toList_ofList]
  · rw [Nat.zero_add]
  · rw [String.toList_ofList, List.length_append, Nat.zero_add]
  · rwa [String.toList_ofList]
  · rwa [String.toList_ofList]

theorem JumpSite.LiesIn.cons {site : JumpSite} {offset : Nat} {s : List Char} (h : site.LiesIn (offset + 1) s)
    (c : Char) : site.LiesIn offset (c :: s) := by
  obtain ⟨⟨u, v, rfl, hstart, hstop⟩, hne, hdotted⟩ := h
  refine ⟨⟨c :: u, v, rfl, ?_, ?_⟩, hne, hdotted⟩
  · rw [hstart, List.length_cons]
    omega
  · rw [hstop, List.length_cons]
    omega

/-- The first `n` characters of a text are blanks, and then characters of a dotted name. -/
def Gapped (s : List Char) (n : Nat) : Prop :=
  ∃ x y, (∀ c ∈ x, isBlank c = true) ∧ (∀ c ∈ y, isDottedChar c = true) ∧ s.take n = x ++ y

theorem Gapped.zero (s : List Char) : Gapped s 0 := ⟨[], [], by simp, by simp, by simp⟩

theorem Gapped.tail {c : Char} {s : List Char} {n : Nat} (h : Gapped (c :: s) (n + 1)) : Gapped s n := by
  obtain ⟨x, y, hx, hy, htake⟩ := h
  rw [List.take_succ_cons] at htake
  rcases x with _ | ⟨d, x⟩
  · rcases y with _ | ⟨d, y⟩
    · cases htake
    · obtain ⟨-, htake⟩ := List.cons.inj htake
      exact ⟨[], y, by simp, fun e he => hy e (List.mem_cons_of_mem d he), htake⟩
  · obtain ⟨-, htake⟩ := List.cons.inj htake
    exact ⟨x, y, fun e he => hx e (List.mem_cons_of_mem d he), hy, htake⟩

theorem Gapped.dotted_of_not_blank {c : Char} {s : List Char} {n : Nat} (h : Gapped (c :: s) n)
    (hc : isBlank c = false) : ∀ d ∈ (c :: s).take n, isDottedChar d = true := by
  obtain ⟨x, y, hx, hy, htake⟩ := h
  rcases x with _ | ⟨d, x⟩
  · rw [htake]
    exact hy
  · cases n with
    | zero => cases htake
    | succ n =>
        obtain ⟨rfl, -⟩ := List.cons.inj htake
        rw [hx c (by simp)] at hc
        cases hc

namespace HasJump
variable {s : List Char} {site : JumpSite} {width : Nat}

theorem lies (h : HasJump s site width) : site.LiesIn 0 s := by
  cases h with
  | named kind rest hgap hn hname =>
      refine liesIn_append kind _ rest _ hn fun c hc => ?_
      rw [isDottedChar, hname c hc, Bool.true_or]
  | computed kind rest hgap hgap' hm hdotted => exact liesIn_append kind _ rest _ hm hdotted

theorem exists_keyword (h : HasJump s site width) : ∃ front b r, s = front ++ b :: r ∧ isBlank b = true ∧
    front.length < site.start := by
  have hkeyword : ∀ (kind : JumpKind) {gap : List Char} (r : List Char), IsGap gap →
      ∃ b r', kind.keyword.toList ++ gap ++ r = kind.keyword.toList ++ b :: r' ∧ isBlank b = true ∧
        kind.keyword.toList.length < (kind.keyword.toList ++ gap).length := by
    rintro kind (_ | ⟨b, gap⟩) r ⟨hne, hblank⟩
    · exact absurd rfl hne
    · exact ⟨b, gap ++ r, by simp, hblank b (by simp), by simp⟩
  cases h with
  | @named kind gap n rest hgap hn hname =>
      obtain ⟨b, r, heq, hb, hlt⟩ := hkeyword kind (n ++ rest) hgap
      exact ⟨_, b, r, by rw [← heq]; simp, hb, hlt⟩
  | @computed kind gap gap' m rest hgap hgap' hm hdotted =>
      obtain ⟨b, r, heq, hb, hlt⟩ := hkeyword kind (dynamicWord ++ gap' ++ m ++ rest) hgap
      refine ⟨_, b, r, by rw [← heq]; simp, hb, ?_⟩
      simp only [List.length_append] at hlt ⊢
      omega

/-- Blanks part a keyword from its target, so that a dotted name at the head of the text ends before the target. -/
theorem le_start (h : HasJump s site width) {n : Nat} (hn : ∀ c ∈ s.take n, isDottedChar c = true) :
    n ≤ site.start := by
  obtain ⟨front, b, r, rfl, hb, hlt⟩ := h.exists_keyword
  by_contra hlong
  have hmem : b ∈ (front ++ b :: r).take n := by
    rw [List.take_append, List.mem_append]
    obtain ⟨k, hk⟩ : ∃ k, n - front.length = k + 1 := ⟨n - front.length - 1, by omega⟩
    right
    rw [hk, List.take_succ_cons]
    exact List.mem_cons_self
  have hdotted := hn b hmem
  rw [isDottedChar_of_isBlank hb] at hdotted
  cases hdotted

theorem head_not_blank {c : Char} (h : HasJump (c :: s) site width) : isBlank c = false := by
  generalize hs : c :: s = t at h
  cases h with
  | named kind _ _ _ _ => cases kind <;> obtain ⟨rfl, -⟩ := List.cons.inj hs <;> decide
  | computed kind _ _ _ _ _ => cases kind <;> obtain ⟨rfl, -⟩ := List.cons.inj hs <;> decide

theorem width_pos (h : HasJump s site width) : 0 < width := by
  cases h with
  | named kind rest hgap hn hname =>
      have := List.length_pos_iff.2 hn
      simp only [List.length_append]
      omega
  | computed kind rest hgap hgap' hm hdotted =>
      have hword : 0 < dynamicWord.length := by decide
      simp only [List.length_append]
      omega

/-- Only blanks and the target stand between the first name of a jump and the end of its target. -/
theorem gapped (h : HasJump s site width) : width ≤ site.stop ∧ Gapped (s.drop width) (site.stop - width) := by
  cases h with
  | named kind rest hgap hn hname =>
      refine ⟨Nat.le_refl _, ?_⟩
      rw [Nat.sub_self]
      exact Gapped.zero _
  | @computed kind gap gap' m rest hgap hgap' hm hdotted =>
      simp only [List.append_assoc]
      refine ⟨by simp only [List.length_append]; omega, gap', m, hgap'.2, hdotted, ?_⟩
      rw [show kind.keyword.toList ++ (gap ++ (dynamicWord ++ (gap' ++ (m ++ rest)))) =
        (kind.keyword.toList ++ (gap ++ dynamicWord)) ++ ((gap' ++ m) ++ rest) by simp, List.drop_left]
      rw [show (kind.keyword.toList ++ (gap ++ (dynamicWord ++ (gap' ++ m)))).length -
        (kind.keyword.toList ++ (gap ++ dynamicWord)).length = (gap' ++ m).length by
          simp only [List.length_append]; omega, List.take_left]

end HasJump

/-! ## The jumps of a line -/

theorem exists_jumpsFrom_drop : ∀ (n : Nat) (before : Option Char) (offset : Nat) (s : List Char),
    ∃ front, jumpsFrom n before offset s = jumpsFrom 0 front (offset + n) (s.drop n)
  | 0, before, offset, s => ⟨before, rfl⟩
  | n + 1, before, offset, [] => ⟨before, by simp [jumpsFrom]⟩
  | n + 1, before, offset, c :: s => by
    obtain ⟨front, h⟩ := exists_jumpsFrom_drop n (some c) (offset + 1) s
    refine ⟨front, ?_⟩
    rw [jumpsFrom, h, List.drop_succ_cons, Nat.add_assoc, Nat.add_comm 1]

/-- Induction over the jumps of a text: one more character is passed over, or a jump begins at it. -/
theorem jumpsFrom_induction {motive : Nat → List Char → List JumpSite → Prop} (nil : ∀ offset, motive offset [] [])
    (skip : ∀ offset c s sites, motive (offset + 1) s sites → motive offset (c :: s) sites)
    (jump : ∀ inside before offset c s site width, HasJump (c :: s) site width →
      motive (offset + 1) s (jumpsFrom inside before (offset + 1) s) → inside = width - 1 →
      motive offset (c :: s) (site.shift offset :: jumpsFrom inside before (offset + 1) s)) :
    ∀ (s : List Char) (inside : Nat) (before : Option Char) (offset : Nat),
      motive offset s (jumpsFrom inside before offset s) := by
  intro s
  induction s with
  | nil =>
      intro inside before offset
      rw [jumpsFrom]
      exact nil offset
  | cons c s ih =>
      intro inside before offset
      cases inside with
      | succ n =>
          rw [jumpsFrom]
          exact skip _ _ _ _ (ih n (some c) (offset + 1))
      | zero =>
          rw [jumpsFrom]
          split
          · rename_i site width hjump
            split at hjump
            · cases hjump
            · exact jump _ _ _ _ _ _ _ (hasJump_of_jumpAt? hjump) (ih _ _ _) rfl
          · exact skip _ _ _ _ (ih 0 (some c) (offset + 1))

theorem JumpSite.LiesIn.shift {site : JumpSite} {s : List Char} (h : site.LiesIn 0 s) (offset : Nat) :
    (site.shift offset).LiesIn offset s := by
  obtain ⟨⟨u, v, heq, hstart, hstop⟩, hne, hdotted⟩ := h
  refine ⟨⟨u, v, heq, ?_, ?_⟩, hne, hdotted⟩
  · show site.start + offset = _
    omega
  · show site.stop + offset = offset + u.length + site.target.toList.length
    omega

theorem liesIn_of_mem_jumpsFrom (s : List Char) (inside : Nat) (before : Option Char) (offset : Nat) :
    ∀ site ∈ jumpsFrom inside before offset s, site.LiesIn offset s := by
  refine jumpsFrom_induction (motive := fun offset s sites => ∀ site ∈ sites, site.LiesIn offset s) ?_ ?_ ?_ s inside
    before offset
  · intro offset site hsite
    cases hsite
  · intro offset c s sites ih site hsite
    exact (ih site hsite).cons c
  · intro inside before offset c s site width hjump ih _ site' hsite'
    rcases List.mem_cons.1 hsite' with rfl | hsite'
    · exact hjump.lies.shift offset
    · exact (ih site' hsite').cons c

/-- No target begins in front of a dotted name that ends behind blanks. -/
theorem le_start_of_mem_jumpsFrom (s : List Char) (inside : Nat) (before : Option Char) (offset : Nat) :
    ∀ n, Gapped s n → ∀ site ∈ jumpsFrom inside before offset s, offset + n ≤ site.start := by
  refine jumpsFrom_induction
    (motive := fun offset s sites => ∀ n, Gapped s n → ∀ site ∈ sites, offset + n ≤ site.start) ?_ ?_ ?_ s inside
    before offset
  · intro offset n _ site hsite
    cases hsite
  · intro offset c s sites ih n hn site hsite
    cases n with
    | zero =>
        have hle := ih 0 (Gapped.zero s) site hsite
        omega
    | succ n =>
        have hle := ih n hn.tail site hsite
        omega
  · intro inside before offset c s site width hjump ih _ n hn site' hsite'
    rcases List.mem_cons.1 hsite' with rfl | hsite'
    · have hle := hjump.le_start (hn.dotted_of_not_blank hjump.head_not_blank)
      show offset + n ≤ site.start + offset
      omega
    · cases n with
      | zero =>
          have hle := ih 0 (Gapped.zero s) site' hsite'
          omega
      | succ n =>
          have hle := ih n hn.tail site' hsite'
          omega

/-- Of two jumps of a line, the target of the first ends before the target of the second begins. -/
theorem pairwise_jumpsFrom (s : List Char) (inside : Nat) (before : Option Char) (offset : Nat) :
    (jumpsFrom inside before offset s).Pairwise fun j k => j.stop ≤ k.start := by
  refine jumpsFrom_induction (motive := fun _ _ sites => sites.Pairwise fun j k => j.stop ≤ k.start) ?_ ?_ ?_ s inside
    before offset
  · exact fun _ => List.Pairwise.nil
  · exact fun _ _ _ _ ih => ih
  · intro inside before offset c s site width hjump ih hinside
    refine List.pairwise_cons.2 ⟨fun k hk => ?_, ih⟩
    -- The search goes on in front of a computed target, so that a keyword may be found in it; blanks part that keyword
    -- from the target of its own.
    obtain ⟨front, hdrop⟩ := exists_jumpsFrom_drop inside before (offset + 1) s
    obtain ⟨hstop, hgapped⟩ := hjump.gapped
    obtain ⟨w, rfl⟩ : ∃ w, width = w + 1 := ⟨width - 1, by have := hjump.width_pos; omega⟩
    rw [Nat.add_sub_cancel] at hinside
    subst hinside
    rw [List.drop_succ_cons] at hgapped
    rw [hdrop] at hk
    have hle := le_start_of_mem_jumpsFrom _ _ _ _ _ hgapped k hk
    show site.stop + offset ≤ k.start
    omega

/-! ## Headers -/

theorem exists_append_of_keywordName? {keyword line n rest : List Char} {column : Nat}
    (h : keywordName? keyword line = some (column, n, rest)) : ∃ u, line = u ++ n ++ rest ∧ column = u.length := by
  simp only [keywordName?, Option.bind_eq_bind, Option.bind_eq_some_iff] at h
  obtain ⟨s, hs, t, ht, ⟨m, rest'⟩, hname, hresult⟩ := h
  obtain ⟨rfl, rfl, rfl⟩ := (Prod.mk.inj (Option.some.inj hresult)).imp_right Prod.mk.inj
  obtain ⟨gap, -, rfl⟩ := exists_gap_of_afterBlanks? ht
  obtain ⟨-, -, rfl⟩ := exists_run_of_run? hname
  have hline : line = line.takeWhile isBlank ++ keyword ++ gap ++ (m ++ rest') := by
    rw [List.append_assoc, List.append_assoc, ← after?_eq_some_iff.1 hs]
    exact List.takeWhile_append_dropWhile.symm
  refine ⟨line.takeWhile isBlank ++ keyword ++ gap, by rw [List.append_assoc, ← hline], ?_⟩
  have hlength := congrArg List.length hline
  simp only [List.length_append] at hlength ⊢
  omega

theorem prefix_drop_of_keywordName? {keyword line n rest : List Char} {column : Nat}
    (h : keywordName? keyword line = some (column, n, rest)) : n <+: line.drop column := by
  obtain ⟨u, rfl, rfl⟩ := exists_append_of_keywordName? h
  rw [List.append_assoc, List.drop_left]
  exact List.prefix_append n rest

end Script

/-! ## Blocks -/

open Script Text

namespace Text

theorem linesAfter_eq (s : List Char) : ∀ opened, linesAfter opened s = List.splitOnPPrepend (· == '\n') s opened := by
  induction s with
  | nil => exact fun _ => rfl
  | cons c s ih =>
      intro opened
      rw [linesAfter, List.splitOnPPrepend, ih, ih]
      simp

theorem lines_eq_splitOn (s : List Char) : lines s = s.splitOn '\n' := linesAfter_eq s []

end Text

def Block.HasLine (b : Block) (number : Int) (line : List Char) : Prop :=
  ∃ n : Nat, number = n + 1 ∧ (b.content.toList.splitOn '\n')[n]? = some line

theorem Block.hasLine_of_mem {b : Block} {l : List Char × Nat} (h : l ∈ b.numberedLines) : b.HasLine l.2 l.1 := by
  obtain ⟨hpos, hline⟩ := List.mem_zipIdx_iff_le_and_getElem?_sub.1 h
  refine ⟨l.2 - 1, by omega, ?_⟩
  rw [← Text.lines_eq_splitOn, hline]

namespace Block

theorem exists_site_of_mem_jumps {b : Block} {j : Jump} (h : j ∈ b.jumps) : ∃ line, b.HasLine j.line line ∧
    ∃ site : JumpSite, site.LiesIn 0 (mask line) ∧ j.target = site.target ∧ j.columnStart = site.start ∧
      j.columnEnd = site.stop := by
  obtain ⟨l, hl, hj⟩ := List.mem_flatMap.1 h
  obtain ⟨site, hsite, rfl⟩ := List.mem_map.1 hj
  exact ⟨l.1, hasLine_of_mem hl, site, liesIn_of_mem_jumpsFrom _ _ _ _ site hsite, rfl, rfl, rfl⟩

theorem pairwise_jumps (b : Block) :
    b.jumps.Pairwise fun j k => j.line < k.line ∨ j.line = k.line ∧ j.columnEnd ≤ k.columnStart := by
  refine List.pairwise_flatMap.2 ⟨fun l _ => ?_, b.pairwise_numberedLines.imp fun {l m} hlt => ?_⟩
  · refine List.pairwise_map.2 ((pairwise_jumpsFrom (mask l.1) 0 none 0).imp fun {j k} hle => ?_)
    exact Or.inr ⟨rfl, Int.ofNat_le.2 hle⟩
  · intro j hj k hk
    obtain ⟨site, -, rfl⟩ := List.mem_map.1 hj
    obtain ⟨site', -, rfl⟩ := List.mem_map.1 hk
    exact Or.inl (Int.ofNat_lt.2 hlt)

theorem label_stands_at_column {b : Block} {s : LabelSite} (h : s ∈ b.facts.labels) : ∃ line, b.HasLine s.line line ∧
    ∃ column : Nat, s.column = column + 1 ∧ s.label.toList <+: line.drop column := by
  obtain ⟨l, hl, -, hline, column, keyword, rest, hcolumn, hname⟩ := exists_line_of_mem_labels h
  exact ⟨l.1, hline ▸ hasLine_of_mem hl, column, hcolumn, prefix_drop_of_keywordName? hname⟩

end Block

/-- A block has each of its jumps and calls on the line and between the columns that it gives, outside literals and
comments and one behind another; and each of its labels and named menus on the line and from the column on that it
gives. -/
theorem columns_point_at_text (b : Block) :
    (∀ j ∈ b.jumps, ∃ line, b.HasLine j.line line ∧ ∃ start stop : Nat, j.columnStart = start ∧ j.columnEnd = stop ∧
        start < stop ∧ line.extract start stop = j.target.toList ∧
        ∃ ps, Script.Reads line ps ∧ Script.Clear ps start stop) ∧
      (b.jumps.Pairwise fun j k => j.line < k.line ∨ j.line = k.line ∧ j.columnEnd ≤ k.columnStart) ∧
      ∀ s ∈ b.facts.labels, ∃ line, b.HasLine s.line line ∧ ∃ column : Nat, s.column = column + 1 ∧
        s.label.toList <+: line.drop column := by
  refine ⟨fun j hj => ?_, b.pairwise_jumps, fun s hs => Block.label_stands_at_column hs⟩
  obtain ⟨line, hline, site, ⟨⟨u, v, hmask, hstart, hstop⟩, hne, hdotted⟩, htarget, hcolumn, hend⟩ :=
    Block.exists_site_of_mem_jumps hj
  rw [Nat.zero_add] at hstart hstop
  have hspace : ' ' ∉ site.target.toList := by
    intro hmem
    have hchar := hdotted ' ' hmem
    rw [isDottedChar_of_isBlank (by decide)] at hchar
    cases hchar
  have hpos := List.length_pos_iff.2 hne
  obtain ⟨ps, hps⟩ := Script.exists_reads line
  refine ⟨line, hline, site.start, site.stop, hcolumn, hend, by omega, ?_, ps, hps, ?_⟩
  · rw [hstart, hstop, htarget]
    exact Script.extract_of_mask hmask hspace
  · rw [hstart, hstop]
    exact Script.Reads.clear hmask hspace hps hne

end Plotline
