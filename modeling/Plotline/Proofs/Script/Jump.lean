import Mathlib.Data.List.TakeWhile
import Plotline.Script.Jump

/-!
# Statements at the head of a line

* `isWordChar_of_isBlank`, `isDottedChar_of_isBlank`: blanks end words and names.
* `jumpAt?_append`: blanks behind a jump do not change it.
* `head?_jumpsIn`: a jump at the head of a line, its surrounding blanks aside, is the first that is found in the line.
* `isTerminal_iff`: what ends a label is a jump, a call or the word `return`.
-/

namespace Plotline.Script
open Text

/-! ## Blanks -/

/-- The code points of blanks, as closed ranges. -/
def blankRanges : List (Nat × Nat) :=
  [(9, 13), (28, 32), (0x85, 0x85), (0xA0, 0xA0), (0x1680, 0x1680), (0x2000, 0x200A), (0x2028, 0x2028),
    (0x2029, 0x2029), (0x202F, 0x202F), (0x205F, 0x205F), (0x3000, 0x3000)]

theorem exists_blankRange {c : Char} (h : isBlank c = true) : ∃ r ∈ blankRanges, r.1 ≤ c.toNat ∧ c.toNat ≤ r.2 := by
  simp only [isBlank, Bool.or_eq_true, Bool.and_eq_true, decide_eq_true_eq, beq_iff_eq] at h
  simp only [blankRanges, List.mem_cons, exists_eq_or_imp, List.not_mem_nil, or_false, exists_eq_left]
  omega

theorem alphanumericRanges_disjoint : ∀ r ∈ Unicode.alphanumericRanges.toList, ∀ q ∈ blankRanges,
    r.2 < q.1 ∨ q.2 < r.1 := by
  decide +kernel

theorem toNat_of_isNameChar {c : Char} (h : isNameChar c = true) : 48 ≤ c.toNat ∧ c.toNat ≤ 57 ∨
    65 ≤ c.toNat ∧ c.toNat ≤ 90 ∨ c.toNat = 95 ∨ 97 ≤ c.toNat ∧ c.toNat ≤ 122 := by
  have hupper : c.isUpper = decide (c.val ≥ 'A'.val ∧ c.val ≤ 'Z'.val) := rfl
  have hlower : c.isLower = (decide (c.val ≥ 'a'.val) && decide (c.val ≤ 'z'.val)) := rfl
  have halpha : c.isAlpha = (c.isUpper || c.isLower) := rfl
  simp only [isNameChar, Char.isAlphanum, halpha, hupper, hlower, Char.isDigit, Bool.or_eq_true, Bool.and_eq_true,
    decide_eq_true_eq, UInt32.le_iff_toNat_le, Char.reduceVal, UInt32.reduceToNat, Char.toNat_val] at h
  rcases h with h | rfl
  · omega
  · decide

theorem isNameChar_of_isBlank {c : Char} (h : isBlank c = true) : isNameChar c = false := by
  rw [Bool.eq_false_iff]
  intro hname
  have hascii := toNat_of_isNameChar hname
  simp only [isBlank, Bool.or_eq_true, Bool.and_eq_true, decide_eq_true_eq, beq_iff_eq] at h
  omega

theorem isDottedChar_of_isBlank {c : Char} (h : isBlank c = true) : isDottedChar c = false := by
  rw [isDottedChar, isNameChar_of_isBlank h, Bool.false_or, decide_eq_false_iff_not]
  rintro rfl
  revert h
  decide

theorem isWordChar_of_isBlank {c : Char} (h : isBlank c = true) : isWordChar c = false := by
  have hname := isNameChar_of_isBlank h
  rw [isNameChar, Bool.or_eq_false_iff] at hname
  rw [isWordChar, hname.2, Bool.or_false, Unicode.isAlphanumeric]
  split
  · exact hname.1
  · obtain ⟨q, hq, hle⟩ := exists_blankRange h
    rw [← Array.any_toList, List.any_eq_false]
    intro r hr
    have hdisjoint := alphanumericRanges_disjoint r hr q hq
    simp only [Bool.and_eq_true, decide_eq_true_eq]
    omega

theorem skipBlanks_eq_nil {w : List Char} (hw : ∀ c ∈ w, isBlank c = true) : skipBlanks w = [] :=
  List.dropWhile_eq_nil_iff.2 hw

theorem skipBlanks_append {w : List Char} (hw : ∀ c ∈ w, isBlank c = true) {s : List Char} :
    skipBlanks (s ++ w) = if skipBlanks s = [] then [] else skipBlanks s ++ w := by
  have hw' := skipBlanks_eq_nil hw
  unfold skipBlanks at hw' ⊢
  rw [List.dropWhile_append, hw']
  simp only [List.isEmpty_iff]

/-- A text is its trimmed self with blanks behind it. -/
theorem exists_trimEnd_append (s : List Char) : ∃ w, (∀ c ∈ w, isBlank c = true) ∧ s = trimEnd s ++ w := by
  refine ⟨(s.reverse.takeWhile isBlank).reverse, fun c hc => ?_, ?_⟩
  · exact List.all_eq_true.1 List.all_takeWhile c (List.mem_reverse.1 hc)
  · unfold trimEnd
    rw [← List.reverse_append, List.takeWhile_append_dropWhile, List.reverse_reverse]

/-! ## Recognisers in front of blanks -/

theorem after?_eq_some_iff {r : List Char} : ∀ {start s : List Char}, after? start s = some r ↔ s = start ++ r
  | [], s => by simp [after?]
  | a :: as, [] => by simp [after?]
  | a :: as, c :: s => by
    rw [after?]
    by_cases h : a = c
    · rw [if_pos h, after?_eq_some_iff, h]
      simp
    · rw [if_neg h]
      simp [Ne.symm h]

theorem jumpKeyword?_eq_some_iff {k : JumpKind} {s r : List Char} :
    jumpKeyword? s = some (k, r) ↔ s = k.keyword.toList ++ r := by
  unfold jumpKeyword?
  cases hjump : after? ['j', 'u', 'm', 'p'] s with
  | some r' =>
      obtain rfl := after?_eq_some_iff.1 hjump
      cases k <;> simp [JumpKind.keyword, eq_comm]
  | none =>
      have hnone : ∀ r', s ≠ ['j', 'u', 'm', 'p'] ++ r' := fun r' h => by
        rw [after?_eq_some_iff.2 h] at hjump
        cases hjump
      cases k with
      | jump =>
          refine ⟨fun h => ?_, fun h => absurd h (hnone r)⟩
          obtain ⟨r', -, heq⟩ := Option.map_eq_some_iff.1 h
          cases heq
      | call =>
          simp only [Option.map_eq_some_iff, Prod.mk.injEq, true_and, exists_eq_right]
          exact after?_eq_some_iff

section Append
variable {w : List Char}

theorem run?_append {p : Char → Bool} (hw : ∀ c ∈ w, p c = false) (s : List Char) :
    run? p (s ++ w) = (run? p s).map fun e => (e.1, e.2 ++ w) := by
  have htake : w.takeWhile p = [] := by
    cases w with
    | nil => rfl
    | cons c w => exact List.takeWhile_cons_of_neg (by simp [hw c (by simp)])
  have hdrop : w.dropWhile p = w := by
    have hboth : w.takeWhile p ++ w.dropWhile p = w := List.takeWhile_append_dropWhile
    rwa [htake, List.nil_append] at hboth
  have htakes : (s ++ w).takeWhile p = s.takeWhile p := by
    rw [List.takeWhile_append, htake, List.append_nil]
    split
    · rename_i hlength
      exact ((List.takeWhile_sublist p).eq_of_length hlength).symm
    · rfl
  have hdrops : (s ++ w).dropWhile p = s.dropWhile p ++ w := by
    rw [List.dropWhile_append, hdrop]
    split
    · rename_i hnil
      rw [List.isEmpty_iff.1 hnil, List.nil_append]
    · rfl
  unfold run?
  rw [htakes, hdrops]
  cases s.takeWhile p <;> rfl

theorem afterBlanks?_cons (c : Char) (r : List Char) :
    afterBlanks? (c :: r) = if isBlank c then some (skipBlanks r) else none :=
  rfl

/-- A run behind blanks does not grow by blanks, nor do blanks make one. -/
theorem bind_run?_append {p : Char → Bool} (hp : ∀ c, isBlank c = true → p c = false)
    (hw : ∀ c ∈ w, isBlank c = true) (s : List Char) :
    ((afterBlanks? (s ++ w)).bind fun t => (run? p t).map (t, ·)) =
      ((afterBlanks? s).bind fun t => (run? p t).map (t, ·)).map fun e => (e.1 ++ w, e.2.1, e.2.2 ++ w) := by
  cases s with
  | nil =>
      cases w with
      | nil => rfl
      | cons c w =>
          have hskip : skipBlanks w = [] := skipBlanks_eq_nil fun d hd => hw d (List.mem_cons_of_mem c hd)
          rw [List.nil_append, afterBlanks?_cons, if_pos (hw c (by simp)), hskip]
          rfl
  | cons c r =>
      rw [List.cons_append, afterBlanks?_cons, afterBlanks?_cons, skipBlanks_append hw]
      by_cases hc : isBlank c = true
      · rw [if_pos hc, if_pos hc]
        by_cases hr : skipBlanks r = []
        · rw [if_pos hr, hr]
          rfl
        · rw [if_neg hr]
          show (run? p (skipBlanks r ++ w)).map _ = ((run? p (skipBlanks r)).map _).map _
          rw [run?_append (fun d hd => hp d (hw d hd)), Option.map_map, Option.map_map]
          rfl
      · rw [if_neg hc, if_neg hc]
        rfl

theorem computedTarget?_append (hw : ∀ c ∈ w, isBlank c = true) (s : List Char) :
    computedTarget? (s ++ w) = (computedTarget? s).map fun e => (e.1 ++ w, e.2.1, e.2.2 ++ w) := by
  have hbind : ∀ s, computedTarget? s = (afterBlanks? s).bind fun t => (run? isDottedChar t).map (t, ·) := by
    intro s
    unfold computedTarget?
    refine Option.bind_congr fun t _ => ?_
    cases run? isDottedChar t <;> rfl
  rw [hbind, hbind, bind_run?_append (fun _ => isDottedChar_of_isBlank) hw]

theorem jumpAt?_append (hw : ∀ c ∈ w, isBlank c = true) {s : List Char} {x : JumpSite × Nat}
    (h : jumpAt? s = some x) : jumpAt? (s ++ w) = some x := by
  simp only [jumpAt?, Option.bind_eq_bind, Option.bind_eq_some_iff] at h ⊢
  obtain ⟨⟨kind, r⟩, hkey, named, hnamed, ⟨n, rest⟩, hname, hx⟩ := h
  have hkey' : jumpKeyword? (s ++ w) = some (kind, r ++ w) := by
    rw [jumpKeyword?_eq_some_iff.1 hkey, List.append_assoc]
    exact jumpKeyword?_eq_some_iff.2 rfl
  have hrun : ((afterBlanks? (r ++ w)).bind fun t => (run? isNameChar t).map (t, ·)) =
      some (named ++ w, n, rest ++ w) := by
    have hrun : run? isNameChar named = some (n, rest) := hname
    rw [bind_run?_append (fun _ => isNameChar_of_isBlank) hw, hnamed, Option.bind_some, hrun]
    rfl
  obtain ⟨t, hnamed', hname'⟩ := Option.bind_eq_some_iff.1 hrun
  obtain ⟨e, hname', he⟩ := Option.map_eq_some_iff.1 hname'
  obtain ⟨rfl, rfl⟩ := Prod.mk.inj he
  refine ⟨(kind, r ++ w), hkey', named ++ w, hnamed', (n, rest ++ w), hname', ?_⟩
  simp only [List.length_append, Nat.add_sub_add_right, computedTarget?_append hw] at hx ⊢
  split at hx
  · rename_i hdynamic
    rw [if_pos hdynamic]
    cases hcomputed : computedTarget? rest with
    | none =>
        rw [hcomputed] at hx
        exact hx
    | some e =>
        rw [hcomputed] at hx
        simp only [Option.map_some, List.length_append, Nat.add_sub_add_right]
        exact hx
  · rename_i hstatic
    rw [if_neg hstatic]
    exact hx

end Append

/-! ## Lines -/

theorem jumpAt?_blank {c : Char} (hc : isBlank c = true) (s : List Char) : jumpAt? (c :: s) = none := by
  have hkey : jumpKeyword? (c :: s) = none := by
    rw [Option.eq_none_iff_forall_ne_some]
    rintro ⟨kind, r⟩ hkey
    have hhead := congrArg List.head? (jumpKeyword?_eq_some_iff.1 hkey)
    obtain rfl | rfl : c = 'j' ∨ c = 'c' := by
      cases kind
      · exact Or.inl (Option.some.inj hhead)
      · exact Or.inr (Option.some.inj hhead)
    · revert hc
      decide
    · revert hc
      decide
  unfold jumpAt?
  rw [hkey]
  rfl

/-- Blanks at the head of a line only move the columns of its jumps. -/
theorem jumpsFrom_blanks (y : List Char) : ∀ (w : List Char) (before : Option Char) (offset : Nat),
    (∀ c ∈ w, isBlank c = true) → before.any isWordChar = false →
      ∃ front : Option Char, front.any isWordChar = false ∧
        jumpsFrom 0 before offset (w ++ y) = jumpsFrom 0 front (offset + w.length) y
  | [], before, offset, _, hbefore => ⟨before, hbefore, rfl⟩
  | c :: w, before, offset, hw, hbefore => by
    have hc : isBlank c = true := hw c (by simp)
    have hfront : (some c).any isWordChar = false := isWordChar_of_isBlank hc
    obtain ⟨front, hany, hrest⟩ :=
      jumpsFrom_blanks y w (some c) (offset + 1) (fun d hd => hw d (List.mem_cons_of_mem c hd)) hfront
    refine ⟨front, hany, ?_⟩
    have hstep : jumpsFrom 0 before offset (c :: w ++ y) = jumpsFrom 0 (some c) (offset + 1) (w ++ y) := by
      rw [List.cons_append, jumpsFrom, if_neg (by simp [hbefore]), jumpAt?_blank hc]
    rw [hstep, hrest, List.length_cons, Nat.add_assoc, Nat.add_comm 1]

/-- A jump at the head of a line, surrounding blanks aside, is the first that is found in the line. -/
theorem head?_jumpsIn {line : List Char} {site : JumpSite} {width : Nat}
    (h : jumpAt? (trim (mask line)) = some (site, width)) :
    (jumpsIn line).head? = some (site.shift (indentation (mask line))) := by
  obtain ⟨w, hw, hline⟩ := exists_trimEnd_append (skipBlanks (mask line))
  have hjump : jumpAt? (skipBlanks (mask line)) = some (site, width) := by
    rw [hline]
    exact jumpAt?_append hw h
  obtain ⟨front, hfront, hjumps⟩ := jumpsFrom_blanks (skipBlanks (mask line)) ((mask line).takeWhile isBlank) none 0
    (fun c hc => List.all_eq_true.1 List.all_takeWhile c hc) rfl
  have hmask : (mask line).takeWhile isBlank ++ skipBlanks (mask line) = mask line :=
    List.takeWhile_append_dropWhile
  rw [hmask, Nat.zero_add] at hjumps
  unfold jumpsIn
  rw [hjumps]
  cases hskip : skipBlanks (mask line) with
  | nil =>
      rw [hskip] at hjump
      cases hjump
  | cons c r =>
      rw [hskip] at hjump
      rw [jumpsFrom, if_neg (by simp [hfront]), hjump]
      rfl

/-- A text begins with a jump if and only if a name follows the keyword. -/
theorem isSome_jumpAt? {s r : List Char} {kind : JumpKind} (h : jumpKeyword? s = some (kind, r)) :
    (jumpAt? s).isSome = ((afterBlanks? r).bind name?).isSome := by
  simp only [jumpAt?, h, Option.bind_eq_bind, Option.bind_some]
  cases afterBlanks? r with
  | none => rfl
  | some named =>
      simp only [Option.bind_some]
      cases name? named with
      | none => rfl
      | some e =>
          simp only [Option.bind_some]
          split
          · split <;> rfl
          · rfl

/-- What ends a label is a jump, a call or the word `return`. -/
theorem isTerminal_iff {s : List Char} : isTerminal s = true ↔
    (∃ site width, jumpAt? s = some (site, width)) ∨
      ∃ r, after? ['r', 'e', 't', 'u', 'r', 'n'] s = some r ∧ endsWord r = true := by
  have hsome : (∃ site width, jumpAt? s = some (site, width)) ↔ (jumpAt? s).isSome = true := by
    rw [Option.isSome_iff_exists, Prod.exists]
  rw [hsome]
  unfold isTerminal
  cases hkey : jumpKeyword? s with
  | some e =>
      obtain ⟨kind, r⟩ := e
      rw [isSome_jumpAt? hkey, or_iff_left]
      rintro ⟨r', hreturn, -⟩
      have hboth := (jumpKeyword?_eq_some_iff.1 hkey).symm.trans (after?_eq_some_iff.1 hreturn)
      cases kind <;> simp [JumpKind.keyword] at hboth
  | none =>
      have hnone : jumpAt? s = none := by
        unfold jumpAt?
        rw [hkey]
        rfl
      rw [hnone, Option.isSome_none, or_iff_right Bool.false_ne_true]
      cases after? ['r', 'e', 't', 'u', 'r', 'n'] s <;> simp

end Plotline.Script
