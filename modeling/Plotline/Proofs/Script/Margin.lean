import Mathlib.Data.List.TakeWhile
import Plotline.Proofs.Script.Jump
import Plotline.Proofs.Script.Literals
import Plotline.Route.Graph

/-!
# How deep a statement stands

Depth is measured on masked lines. A string literal at the head of a line is masked by spaces, and so it counts as part
of the margin.

* `margin`: the width of the blanks and literals at the head of a line; `margin_eq_width` reads it off the pieces.
* `indentation_mask`: the indentation of a masked line is the margin of the line.
* `margin_eq_indentation_iff`: the margin is the indentation unless the line opens with a literal.
* `Leaves`, `isTerminal_iff_leaves`: the statements after which control does not run on.
* `EndsAt`: some such statement stands no deeper than the first line that shows something.
* `hasTerminal_iff`: a body ends at its margin, and at its indentation if the lines that count open with no literal.
* `nested_jump_ends_body`: a jump inside a condition ends a body whose first line opens with a literal.
-/

namespace Plotline.Script
open Text

/-! ## Margins -/

def margin (line : List Char) : Nat := indentation (blankLiterals line)

/-- The first character of a line that is not blank opens a string literal. -/
def OpensWithLiteral (line : List Char) : Prop := ∃ t rest, IsLiteral t ∧ skipBlanks line = t ++ rest

/-- A piece that leaves its place in a masked line blank. -/
def Piece.isVacant : Piece → Bool
  | plain c => isBlank c
  | literal _ => true

/-- The comment of a line begins with no blank, so that cutting it off leaves the leading blanks as they are. -/
theorem indentation_mask (line : List Char) : indentation (mask line) = margin line := by
  unfold margin indentation mask
  rw [List.takeWhile_takeWhile]
  congr 2
  funext c
  by_cases hc : c = '#'
  · subst hc
    decide
  · simp [hc]

theorem takeWhile_isBlank_replicate (n : Nat) (s : List Char) :
    (List.replicate n ' ' ++ s).takeWhile isBlank = List.replicate n ' ' ++ s.takeWhile isBlank := by
  rw [List.takeWhile_append_of_pos]
  intro c hc
  rw [List.eq_of_mem_replicate hc]
  decide

/-- The margin of a line is that of its pieces in front of the first one that shows something. -/
theorem margin_eq_width {s : List Char} {ps : List Piece} (h : Reads s ps) :
    margin s = width (ps.takeWhile Piece.isVacant) := by
  unfold margin indentation
  rw [h.blankLiterals_eq]
  clear h
  induction ps with
  | nil => rfl
  | cons p ps ih =>
      rw [List.flatMap_cons, List.takeWhile_cons]
      cases p with
      | literal t =>
          rw [show (Piece.literal t).shown = List.replicate t.length ' ' from rfl, takeWhile_isBlank_replicate,
            List.length_append, ih, List.length_replicate]
          simp [Piece.isVacant, width, Piece.text]
      | plain c =>
          rw [show (Piece.plain c).shown = [c] from rfl, List.singleton_append, List.takeWhile_cons]
          cases hc : isBlank c with
          | true => simp [Piece.isVacant, hc, width, Piece.text, ih]
          | false => simp [Piece.isVacant, hc, width]

theorem skipBlanks_literal {t : List Char} (ht : IsLiteral t) (s : List Char) : skipBlanks (t ++ s) = t ++ s := by
  obtain ⟨q, body, hq, -, rfl⟩ := ht
  have hblank : isBlank q = false := by rcases hq with rfl | rfl <;> decide
  show (q :: (body ++ [q] ++ s)).dropWhile isBlank = _
  rw [List.dropWhile_cons_of_neg (by simp [hblank])]
  rfl

theorem indentation_cons_blank {c : Char} (hc : isBlank c = true) (s : List Char) :
    indentation (c :: s) = indentation s + 1 := by
  unfold indentation
  rw [List.takeWhile_cons_of_pos hc, List.length_cons]

theorem indentation_of_skipBlanks_eq {s : List Char} (h : skipBlanks s = s) : indentation s = 0 := by
  have hboth : s.takeWhile isBlank ++ skipBlanks s = s := List.takeWhile_append_dropWhile
  have hlength := congrArg List.length hboth
  rw [h, List.length_append] at hlength
  unfold indentation
  omega

/-- A literal at the head of a line widens its margin, and nothing else does. -/
theorem margin_cases (s : List Char) : indentation s = margin s ∧ ¬OpensWithLiteral s ∨
    indentation s < margin s ∧ OpensWithLiteral s := by
  obtain ⟨ps, h⟩ := exists_reads s
  rw [margin_eq_width h]
  induction h with
  | nil =>
      refine Or.inl ⟨rfl, ?_⟩
      rintro ⟨t, rest, ht, hnil⟩
      have hpos := ht.length_pos
      have hlength := congrArg List.length hnil
      rw [List.length_append] at hlength
      simp [skipBlanks] at hlength
      omega
  | @literal t s ps ht _ _ =>
      have hskip := skipBlanks_literal ht s
      refine Or.inr ⟨?_, t, s, ht, hskip⟩
      rw [indentation_of_skipBlanks_eq hskip, List.takeWhile_cons_of_pos rfl]
      unfold width
      rw [List.flatMap_cons, List.length_append]
      have hpos : 0 < (Piece.literal t).text.length := ht.length_pos
      omega
  | @plain c s ps hnone _ ih =>
      by_cases hc : isBlank c = true
      · have hopens : OpensWithLiteral (c :: s) ↔ OpensWithLiteral s := by
          unfold OpensWithLiteral skipBlanks
          rw [List.dropWhile_cons_of_pos hc]
        have hwidth : width ((Piece.plain c :: ps).takeWhile Piece.isVacant) =
            width (ps.takeWhile Piece.isVacant) + 1 := by
          rw [List.takeWhile_cons_of_pos (show Piece.isVacant (.plain c) = true from hc)]
          simp [width, Piece.text, Nat.add_comm]
        rw [indentation_cons_blank hc, hopens, hwidth, Nat.add_right_cancel_iff, Nat.add_lt_add_iff_right]
        exact ih
      · have hskip : skipBlanks (c :: s) = c :: s := List.dropWhile_cons_of_neg hc
        refine Or.inl ⟨?_, ?_⟩
        · rw [indentation_of_skipBlanks_eq hskip,
            List.takeWhile_cons_of_neg (show ¬Piece.isVacant (.plain c) = true from hc)]
          rfl
        · rintro ⟨t, rest, ht, heq⟩
          exact hnone t rest ht (hskip.symm.trans heq)

theorem margin_eq_indentation_iff (s : List Char) : margin s = indentation s ↔ ¬OpensWithLiteral s := by
  rcases margin_cases s with ⟨heq, hnot⟩ | ⟨hlt, hopens⟩
  · exact ⟨fun _ => hnot, fun _ => heq.symm⟩
  · exact ⟨fun h => by omega, fun h => absurd hopens h⟩

/-! ## Statements that control does not run on from -/

/-- The statement is a jump or a call to some name, or it begins with the word `return`. -/
inductive Leaves : List Char → Prop
  | jump (kind : JumpKind) {gap : List Char} {c : Char} {rest : List Char} : gap ≠ [] →
      (∀ b ∈ gap, isBlank b = true) → isNameChar c = true → Leaves (kind.keyword.toList ++ gap ++ c :: rest)
  | back {rest : List Char} : endsWord rest = true → Leaves ("return".toList ++ rest)

theorem isSome_name?_iff {r : List Char} : ((afterBlanks? r).bind name?).isSome = true ↔
    ∃ gap c rest, gap ≠ [] ∧ (∀ b ∈ gap, isBlank b = true) ∧ isNameChar c = true ∧ r = gap ++ c :: rest := by
  constructor
  · intro h
    obtain ⟨e, he⟩ := Option.isSome_iff_exists.1 h
    obtain ⟨s, hs, hname⟩ := Option.bind_eq_some_iff.1 he
    cases r with
    | nil => cases hs
    | cons b r =>
        rw [afterBlanks?_cons] at hs
        split at hs
        · rename_i hb
          obtain rfl := Option.some.inj hs
          have hboth : r.takeWhile isBlank ++ skipBlanks r = r := List.takeWhile_append_dropWhile
          cases hskip : skipBlanks r with
          | nil =>
              rw [hskip] at hname
              cases hname
          | cons c rest =>
              refine ⟨b :: r.takeWhile isBlank, c, rest, List.cons_ne_nil _ _, ?_, ?_, ?_⟩
              · intro d hd
                rcases List.mem_cons.1 hd with rfl | hd
                · exact hb
                · exact List.all_eq_true.1 List.all_takeWhile d hd
              · by_contra hc
                rw [hskip, name?, run?, List.takeWhile_cons_of_neg hc] at hname
                cases hname
              · rw [List.cons_append, ← hskip, hboth]
        · cases hs
  · rintro ⟨gap, c, rest, hne, hgap, hc, rfl⟩
    cases gap with
    | nil => exact absurd rfl hne
    | cons b gap =>
        have hblank : isBlank c = false := by
          rw [Bool.eq_false_iff]
          intro hb
          rw [isNameChar_of_isBlank hb] at hc
          cases hc
        have hskip : skipBlanks (gap ++ c :: rest) = c :: rest := by
          unfold skipBlanks
          rw [List.dropWhile_append_of_pos fun d hd => hgap d (List.mem_cons_of_mem b hd),
            List.dropWhile_cons_of_neg (by simp [hblank])]
        rw [List.cons_append, afterBlanks?_cons, if_pos (hgap b List.mem_cons_self), hskip, Option.bind_some, name?,
          run?,
          List.takeWhile_cons_of_pos hc]
        rfl

theorem isTerminal_iff_leaves {s : List Char} : isTerminal s = true ↔ Leaves s := by
  rw [isTerminal_iff]
  constructor
  · rintro (⟨site, width, hjump⟩ | ⟨rest, hreturn, hends⟩)
    · cases hkey : jumpKeyword? s with
      | none =>
          unfold jumpAt? at hjump
          rw [hkey] at hjump
          cases hjump
      | some e =>
          obtain ⟨kind, r⟩ := e
          have hsome := isSome_jumpAt? hkey
          rw [hjump, Option.isSome_some] at hsome
          obtain ⟨gap, c, rest, hne, hgap, hc, rfl⟩ := isSome_name?_iff.1 hsome.symm
          rw [jumpKeyword?_eq_some_iff.1 hkey, ← List.append_assoc]
          exact .jump kind hne hgap hc
    · rw [after?_eq_some_iff.1 hreturn]
      exact .back hends
  · intro h
    cases h with
    | @jump kind gap c rest hne hgap hc =>
        rw [List.append_assoc]
        have hkey := (jumpKeyword?_eq_some_iff (k := kind) (r := gap ++ c :: rest)).2 rfl
        have hsome := (isSome_jumpAt? hkey).trans (isSome_name?_iff.2 ⟨gap, c, rest, hne, hgap, hc, rfl⟩)
        obtain ⟨⟨site, width⟩, hsite⟩ := Option.isSome_iff_exists.1 hsome
        exact Or.inl ⟨site, width, hsite⟩
    | @back rest hends => exact Or.inr ⟨rest, after?_eq_some_iff.2 rfl, hends⟩

/-! ## Bodies -/

/-- Something is left of the line when literals and the comment are masked. -/
def shows (line : List Char) : Bool := !(trim (mask line)).isEmpty

/-- By some measure of depth, a statement that control does not run on from stands no deeper than the first line that
shows something. -/
def EndsAt (depth : List Char → Nat) (body : List (List Char)) : Prop :=
  ∃ first, body.find? shows = some first ∧
    ∃ line ∈ body, Leaves (trim (mask line)) ∧ depth line ≤ depth first

theorem shows_of_leaves {line : List Char} (h : Leaves (trim (mask line))) : shows line = true := by
  unfold shows
  cases hshown : trim (mask line) with
  | cons c r => rfl
  | nil =>
      rw [hshown, ← isTerminal_iff_leaves] at h
      cases h

theorem hasTerminal_iff_endsAt_margin (body : List (List Char)) : hasTerminal body = true ↔ EndsAt margin body := by
  have hshown : (body.map mask).filter (fun l => !(trim l).isEmpty) = (body.filter shows).map mask := List.filter_map
  unfold hasTerminal EndsAt
  simp only [hshown]
  rw [← List.head?_filter]
  cases hfilter : body.filter shows with
  | nil => simp
  | cons first rest =>
      have hany : ((first :: rest).map mask).any
          (fun l => decide (indentation l ≤ indentation (mask first)) && isTerminal (trim l)) = true ↔
            ∃ line ∈ body, Leaves (trim (mask line)) ∧ margin line ≤ margin first := by
        simp only [← hfilter, List.any_map, List.any_eq_true, Function.comp_apply, Bool.and_eq_true, decide_eq_true_eq,
          indentation_mask, isTerminal_iff_leaves, List.mem_filter]
        constructor
        · rintro ⟨line, ⟨hline, -⟩, hdepth, hleaves⟩
          exact ⟨line, hline, hleaves, hdepth⟩
        · rintro ⟨line, hline, hleaves, hdepth⟩
          exact ⟨line, ⟨hline, shows_of_leaves hleaves⟩, hdepth, hleaves⟩
      rw [List.head?_cons]
      simpa using hany

/-- Depth may be measured either way if it makes no difference for the lines that count. -/
theorem endsAt_congr {depth depth' : List Char → Nat} {body : List (List Char)}
    (hfirst : ∀ first, body.find? shows = some first → depth first = depth' first)
    (hleaves : ∀ line ∈ body, Leaves (trim (mask line)) → depth line = depth' line) :
    EndsAt depth body ↔ EndsAt depth' body := by
  refine exists_congr fun first => and_congr_right fun hshown => exists_congr fun line => and_congr_right fun hline =>
    and_congr_right fun hends => ?_
  rw [hfirst first hshown, hleaves line hline hends]

/-- **How deep statements count.** A body ends at its margin, where literals at the head of a line count as blanks. It
ends at its indentation, as it is written, if neither the first line that shows something nor a line with a jump, a
call or a return opens with a literal. -/
theorem hasTerminal_iff (body : List (List Char)) : (hasTerminal body = true ↔ EndsAt margin body) ∧
    ((∀ first, body.find? shows = some first → ¬OpensWithLiteral first) →
      (∀ line ∈ body, Leaves (trim (mask line)) → ¬OpensWithLiteral line) →
        (hasTerminal body = true ↔ EndsAt indentation body)) := by
  refine ⟨hasTerminal_iff_endsAt_margin body, fun hfirst hleaves => ?_⟩
  rw [hasTerminal_iff_endsAt_margin]
  exact endsAt_congr (fun first h => (margin_eq_indentation_iff first).2 (hfirst first h))
    fun line hline h => (margin_eq_indentation_iff line).2 (hleaves line hline h)

/-- A menu with a jump in it, and a jump behind it. -/
def fork : List (List Char) :=
  ["    menu:", "        \"Left.\":", "            jump mill", "    jump farm"].map String.toList

theorem hasTerminal_iff_fork : (∀ first, fork.find? shows = some first → ¬OpensWithLiteral first) ∧
    (∀ line ∈ fork, Leaves (trim (mask line)) → ¬OpensWithLiteral line) ∧ EndsAt indentation fork := by
  have hfirst : ∀ first, fork.find? shows = some first → ¬OpensWithLiteral first := by
    intro first hshown
    have hmenu : fork.find? shows = some "    menu:".toList := by decide +kernel
    obtain rfl := Option.some.inj (hmenu.symm.trans hshown)
    exact (margin_eq_indentation_iff _).1 (by decide +kernel)
  have hleaves : ∀ line ∈ fork, Leaves (trim (mask line)) → ¬OpensWithLiteral line := by
    have hdepth : ∀ line ∈ fork, isTerminal (trim (mask line)) = true → margin line = indentation line := by
      decide +kernel
    intro line hline hends
    exact (margin_eq_indentation_iff line).1 (hdepth line hline (isTerminal_iff_leaves.2 hends))
  exact ⟨hfirst, hleaves, ((hasTerminal_iff fork).2 hfirst hleaves).1 (by decide +kernel)⟩

/-- A narration with an effect, and a condition with a jump in it. -/
def dawn : List (List Char) := ["    \"Dawn.\" with fade", "    if ready:", "        jump away"].map String.toList

/-- The jump stands deeper than every statement of the body, and yet it ends the body. -/
theorem nested_jump_ends_body : hasTerminal dawn = true ∧ ¬EndsAt indentation dawn := by
  refine ⟨by decide +kernel, ?_⟩
  rintro ⟨first, hfirst, line, hline, hleaves, hdepth⟩
  have hdawn : dawn.find? shows = some "    \"Dawn.\" with fade".toList := by decide +kernel
  obtain rfl := Option.some.inj (hdawn.symm.trans hfirst)
  have hdeeper : ∀ line ∈ dawn, isTerminal (trim (mask line)) = true →
      ¬indentation line ≤ indentation "    \"Dawn.\" with fade".toList := by decide +kernel
  exact hdeeper line hline (isTerminal_iff_leaves.2 hleaves) hdepth

end Plotline.Script
