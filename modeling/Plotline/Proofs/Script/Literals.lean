import Mathlib.Data.List.Basic
import Plotline.Script.Mask

/-!
# Literals and comments of a line

A line is read here as a row of pieces, without regard to how it is masked.

* `IsLiteral`: a text is one complete string literal.
* `Reads`: the pieces of a line from left to right; a literal is taken wherever one can begin, and a quote that nothing
  closes is a character like any other.
* `exists_reads`: every line can be read.
* `Reads.blankLiterals_eq`: blanking shows each literal as spaces and every other character as it is.
* `Clear`: a span that touches neither a literal nor the comment; `Reads.clear` finds such spans in the masked line.
-/

namespace Plotline.Script

/-! ## Literals -/

/-- The text between two quotes `q`: no such quote in it, unless a backslash stands in front. -/
inductive LiteralBody (q : Char) : List Char → Prop
  | nil : LiteralBody q []
  | char {c : Char} {s : List Char} : c ≠ q → c ≠ '\\' → LiteralBody q s → LiteralBody q (c :: s)
  | escape {c : Char} {s : List Char} : c ≠ '\n' → LiteralBody q s → LiteralBody q ('\\' :: c :: s)

/-- One complete string literal. -/
def IsLiteral (t : List Char) : Prop :=
  ∃ q body, (q = '"' ∨ q = '\'') ∧ LiteralBody q body ∧ t = q :: body ++ [q]

theorem ne_backslash_of_quote {q : Char} (h : q = '"' ∨ q = '\'') : q ≠ '\\' := by
  rcases h with rfl | rfl <;> decide

theorem closing?_quote (q : Char) (seen : Nat) (r : List Char) : closing? q seen (q :: r) = some (seen + 1) := by
  rw [closing?.eq_def]
  simp

theorem closing?_char {q c : Char} (hc : c ≠ q) (hback : c ≠ '\\') (seen : Nat) (r : List Char) :
    closing? q seen (c :: r) = closing? q (seen + 1) r := by
  rw [closing?.eq_def]
  simp [hc, hback]

theorem closing?_escape {q : Char} (hq : '\\' ≠ q) (seen : Nat) (d : Char) (r : List Char) :
    closing? q seen ('\\' :: d :: r) = if d = '\n' then none else closing? q (seen + 2) r := by
  rw [closing?.eq_def]
  simp [hq]

theorem closing?_body {q : Char} (hq : q ≠ '\\') {body : List Char} (h : LiteralBody q body) (rest : List Char) :
    ∀ seen, closing? q seen (body ++ q :: rest) = some (seen + body.length + 1) := by
  induction h with
  | nil => exact fun seen => closing?_quote q seen rest
  | char hc hback _ ih =>
      intro seen
      rw [List.cons_append, closing?_char hc hback, ih, List.length_cons]
      congr 1
      omega
  | escape hd _ ih =>
      intro seen
      rw [List.cons_append, List.cons_append, closing?_escape (Ne.symm hq), if_neg hd, ih, List.length_cons,
        List.length_cons]
      congr 1
      omega

/-- A literal closes at the first quote of its kind that no backslash takes away. -/
theorem exists_body_of_closing? {q : Char} (hq : q ≠ '\\') {s : List Char} {seen n : Nat}
    (h : closing? q seen s = some n) :
    ∃ body rest, LiteralBody q body ∧ s = body ++ q :: rest ∧ n = seen + body.length + 1 := by
  induction hlength : s.length using Nat.strongRecOn generalizing s seen with
  | _ k ih =>
      rcases s with _ | ⟨c, r⟩
      · simp [closing?] at h
      rw [List.length_cons] at hlength
      by_cases hc : c = q
      · subst hc
        rw [closing?_quote] at h
        exact ⟨[], r, .nil, rfl, (Option.some.inj h).symm⟩
      by_cases hback : c = '\\'
      · subst hback
        rcases r with _ | ⟨d, r⟩
        · rw [closing?.eq_def] at h
          simp [hc] at h
        rw [List.length_cons] at hlength
        rw [closing?_escape hc] at h
        split at h
        · cases h
        · rename_i hd
          obtain ⟨body, rest, hbody, rfl, rfl⟩ := ih r.length (by omega) h rfl
          refine ⟨_ :: d :: body, rest, .escape hd hbody, rfl, ?_⟩
          rw [List.length_cons, List.length_cons]
          omega
      · rw [closing?_char hc hback] at h
        obtain ⟨body, rest, hbody, rfl, rfl⟩ := ih r.length (by omega) h rfl
        refine ⟨c :: body, rest, .char hc hback hbody, rfl, ?_⟩
        rw [List.length_cons]
        omega

theorem literalLength?_literal {t : List Char} (h : IsLiteral t) (rest : List Char) :
    literalLength? (t ++ rest) = some t.length := by
  obtain ⟨q, body, hq, hbody, rfl⟩ := h
  show (if q = '"' || q = '\'' then closing? q 1 ((body ++ [q]) ++ rest) else none) = _
  rw [if_pos (by simpa using hq), List.append_assoc, List.singleton_append,
    closing?_body (ne_backslash_of_quote hq) hbody, Option.some.injEq, List.length_append, List.length_cons,
    List.length_singleton]
  omega

theorem exists_literal_of_literalLength? {s : List Char} {n : Nat} (h : literalLength? s = some n) :
    ∃ t rest, IsLiteral t ∧ s = t ++ rest ∧ n = t.length := by
  cases s with
  | nil => cases h
  | cons q r =>
      rw [literalLength?] at h
      split at h
      · rename_i hq
        have hquote : q = '"' ∨ q = '\'' := by simpa using hq
        obtain ⟨body, rest, hbody, rfl, rfl⟩ := exists_body_of_closing? (ne_backslash_of_quote hquote) h
        refine ⟨q :: body ++ [q], rest, ⟨q, body, hquote, hbody, rfl⟩, by simp, ?_⟩
        rw [List.length_append, List.length_cons, List.length_singleton]
        omega
      · cases h

theorem IsLiteral.length_pos {t : List Char} (h : IsLiteral t) : 0 < t.length := by
  obtain ⟨q, body, -, -, rfl⟩ := h
  simp

/-! ## Reading a line -/

/-- A piece of a line. -/
inductive Piece where
  | plain (c : Char)
  | literal (t : List Char)
deriving DecidableEq, Repr

namespace Piece

def text : Piece → List Char
  | plain c => [c]
  | literal t => t

/-- What is shown of a piece: a literal becomes spaces. -/
def shown : Piece → List Char
  | plain c => [c]
  | literal t => List.replicate t.length ' '

@[simp] theorem length_shown (p : Piece) : p.shown.length = p.text.length := by
  cases p <;> simp [text, shown]

end Piece

def width (ps : List Piece) : Nat := (ps.flatMap Piece.text).length

theorem length_flatMap_shown : ∀ ps : List Piece, (ps.flatMap Piece.shown).length = width ps
  | [] => rfl
  | p :: ps => by
    have ih := length_flatMap_shown ps
    unfold width at ih ⊢
    rw [List.flatMap_cons, List.flatMap_cons, List.length_append, List.length_append, ih, Piece.length_shown]

/-- The pieces of a line from left to right. -/
inductive Reads : List Char → List Piece → Prop
  | nil : Reads [] []
  | literal {t s : List Char} {ps : List Piece} : IsLiteral t → Reads s ps → Reads (t ++ s) (.literal t :: ps)
  | plain {c : Char} {s : List Char} {ps : List Piece} : (∀ t rest, IsLiteral t → c :: s ≠ t ++ rest) →
      Reads s ps → Reads (c :: s) (.plain c :: ps)

/-- A line begins with a literal or with a character that opens none. -/
theorem literal_or_plain (c : Char) (r : List Char) : (∃ t rest, IsLiteral t ∧ c :: r = t ++ rest) ∨
    literalLength? (c :: r) = none ∧ ∀ t rest, IsLiteral t → c :: r ≠ t ++ rest := by
  cases hlength : literalLength? (c :: r) with
  | some n =>
      obtain ⟨t, rest, ht, heq, -⟩ := exists_literal_of_literalLength? hlength
      exact Or.inl ⟨t, rest, ht, heq⟩
  | none =>
      refine Or.inr ⟨rfl, fun t rest ht heq => ?_⟩
      rw [heq, literalLength?_literal ht] at hlength
      cases hlength

theorem exists_reads (s : List Char) : ∃ ps, Reads s ps := by
  induction hn : s.length using Nat.strongRecOn generalizing s with
  | _ n ih =>
      cases s with
      | nil => exact ⟨[], .nil⟩
      | cons c r =>
          rw [List.length_cons] at hn
          rcases literal_or_plain c r with ⟨t, rest, ht, heq⟩ | ⟨-, hnone⟩
          · have hpos := ht.length_pos
            have hlength := congrArg List.length heq
            rw [List.length_cons, List.length_append] at hlength
            obtain ⟨ps, hps⟩ := ih rest.length (by omega) rest rfl
            exact ⟨.literal t :: ps, heq ▸ .literal ht hps⟩
          · obtain ⟨ps, hps⟩ := ih r.length (by omega) r rfl
            exact ⟨.plain c :: ps, .plain hnone hps⟩

theorem Reads.text_eq {s : List Char} {ps : List Piece} (h : Reads s ps) : ps.flatMap Piece.text = s := by
  induction h with
  | nil => rfl
  | literal _ _ ih => rw [List.flatMap_cons, ih]; rfl
  | plain _ _ ih => rw [List.flatMap_cons, ih]; rfl

theorem Reads.isLiteral {s : List Char} {ps : List Piece} (h : Reads s ps) {t : List Char}
    (ht : Piece.literal t ∈ ps) : IsLiteral t := by
  induction h with
  | nil => cases ht
  | literal hu _ ih =>
      rcases List.mem_cons.1 ht with heq | ht
      · cases heq
        exact hu
      · exact ih ht
  | plain _ _ ih =>
      rcases List.mem_cons.1 ht with heq | ht
      · cases heq
      · exact ih ht

/-! ## Masking -/

theorem blankFrom_append : ∀ (t s : List Char),
    blankFrom t.length (t ++ s) = List.replicate t.length ' ' ++ blankFrom 0 s
  | [], s => rfl
  | c :: t, s => by
    rw [List.length_cons, List.cons_append, blankFrom, blankFrom_append t s, List.replicate_succ, List.cons_append]

theorem blankLiterals_literal {t : List Char} (ht : IsLiteral t) (s : List Char) :
    blankLiterals (t ++ s) = List.replicate t.length ' ' ++ blankLiterals s := by
  cases t with
  | nil => exact absurd ht.length_pos (by simp)
  | cons c t =>
      have hlength := literalLength?_literal ht s
      rw [List.cons_append] at hlength
      show blankFrom 0 (c :: (t ++ s)) = _
      rw [blankFrom, hlength]
      show ' ' :: blankFrom (t.length + 1 - 1) (t ++ s) = _
      rw [Nat.add_sub_cancel, blankFrom_append]
      rfl

theorem Reads.blankLiterals_eq {s : List Char} {ps : List Piece} (h : Reads s ps) :
    blankLiterals s = ps.flatMap Piece.shown := by
  induction h with
  | nil => rfl
  | literal ht _ ih => rw [blankLiterals_literal ht, ih]; rfl
  | @plain c s ps hnone _ ih =>
      have hlength : literalLength? (c :: s) = none := by
        rcases literal_or_plain c s with ⟨t, rest, ht, heq⟩ | ⟨hlength, -⟩
        · exact absurd heq (hnone t rest ht)
        · exact hlength
      show blankFrom 0 (c :: s) = _
      rw [blankFrom, hlength]
      show c :: blankLiterals s = _
      rw [ih]
      rfl

theorem getElem?_blankLiterals_of_mask {s : List Char} {k : Nat} {c : Char} (h : (mask s)[k]? = some c) :
    (blankLiterals s)[k]? = some c := by
  obtain ⟨rest, hrest⟩ : mask s <+: blankLiterals s := List.takeWhile_prefix _
  obtain ⟨hk, -⟩ := List.getElem?_eq_some_iff.1 h
  rw [← hrest, List.getElem?_append_left hk, h]

/-- What is shown and no space stands in the same place of the text. -/
theorem getElem?_of_shown {c : Char} (hc : c ≠ ' ') : ∀ {ps : List Piece} {k : Nat},
    (ps.flatMap Piece.shown)[k]? = some c → (ps.flatMap Piece.text)[k]? = some c
  | p :: ps, k, h => by
    rw [List.flatMap_cons, List.getElem?_append, Piece.length_shown] at h
    rw [List.flatMap_cons, List.getElem?_append]
    split
    · rename_i hk
      rw [if_pos hk] at h
      cases p with
      | plain d => exact h
      | literal t =>
          rw [show (Piece.literal t).shown = List.replicate t.length ' ' from rfl, List.getElem?_replicate] at h
          split at h
          · exact absurd (Option.some.inj h).symm hc
          · cases h
    · rename_i hk
      rw [if_neg hk] at h
      exact getElem?_of_shown hc h

/-! ## Spans outside literals and comments -/

/-- The span from `start` up to `stop` lies in front of the comment of a line, and outside its literals. -/
structure Clear (ps : List Piece) (start stop : Nat) : Prop where
  literals : ∀ front t back, ps = front ++ .literal t :: back → stop ≤ width front ∨ width front + t.length ≤ start
  comment : ∀ front back, ps = front ++ .plain '#' :: back → stop ≤ width front

section Span
variable {s u t w : List Char} (hmask : mask s = u ++ t ++ w) (hspace : ' ' ∉ t)
include hmask

theorem getElem?_blankLiterals_span {k : Nat} (hk : k < t.length) : (blankLiterals s)[u.length + k]? = some t[k] := by
  apply getElem?_blankLiterals_of_mask
  rw [hmask, List.append_assoc, List.getElem?_append_right (by omega), Nat.add_sub_cancel_left,
    List.getElem?_append_left hk, List.getElem?_eq_getElem hk]

include hspace

/-- What the masked line shows in a span without spaces, the line has there. -/
theorem extract_of_mask : s.extract u.length (u.length + t.length) = t := by
  obtain ⟨ps, hps⟩ := exists_reads s
  apply List.ext_getElem?
  intro k
  rw [List.extract_eq_take_drop, Nat.add_sub_cancel_left, List.getElem?_take]
  split
  · rename_i hk
    have hne : t[k] ≠ ' ' := fun h => hspace (h ▸ List.getElem_mem hk)
    have hshown := getElem?_blankLiterals_span hmask hk
    rw [hps.blankLiterals_eq] at hshown
    rw [List.getElem?_drop, List.getElem?_eq_getElem hk, ← getElem?_of_shown hne hshown, hps.text_eq]
  · rename_i hk
    rw [List.getElem?_eq_none (Nat.le_of_not_lt hk)]

/-- A span of the masked line without spaces is clear. -/
theorem Reads.clear {ps : List Piece} (hps : Reads s ps) (ht : t ≠ []) : Clear ps u.length (u.length + t.length) := by
  have htpos := List.length_pos_iff.2 ht
  constructor
  · intro front l back heq
    have hlpos : 0 < l.length := (hps.isLiteral (heq ▸ by simp)).length_pos
    by_contra hoverlap
    rw [not_or] at hoverlap
    -- Some place of the span lies in the literal, where a space is shown.
    obtain ⟨k, hk, hfront, hback⟩ : ∃ k, k < t.length ∧ width front ≤ u.length + k ∧
        u.length + k < width front + l.length := by
      by_cases h : u.length ≤ width front
      · exact ⟨width front - u.length, by omega, by omega, by omega⟩
      · exact ⟨0, by omega, by omega, by omega⟩
    have hshown := getElem?_blankLiterals_span hmask hk
    have hspaces : (Piece.literal l).shown = List.replicate l.length ' ' := rfl
    rw [hps.blankLiterals_eq, heq, List.flatMap_append, List.flatMap_cons, hspaces,
      List.getElem?_append_right (by rwa [length_flatMap_shown]), length_flatMap_shown,
      List.getElem?_append_left (by rw [List.length_replicate]; omega), List.getElem?_replicate,
      if_pos (by omega)] at hshown
    exact hspace (Option.some.inj hshown ▸ List.getElem_mem hk)
  · intro front back heq
    by_contra hbehind
    have hshown : (blankLiterals s)[width front]? = some '#' := by
      rw [hps.blankLiterals_eq, heq, List.flatMap_append, List.flatMap_cons, ← length_flatMap_shown,
        List.getElem?_append_right (Nat.le_refl _), Nat.sub_self]
      rfl
    have hlength : width front < (mask s).length := by
      rw [hmask, List.length_append, List.length_append]
      omega
    have hmasked := getElem?_blankLiterals_of_mask (List.getElem?_eq_getElem hlength)
    rw [hshown] at hmasked
    have hne := List.all_eq_true.1 List.all_takeWhile _ (List.getElem_mem hlength)
    rw [← Option.some.inj hmasked] at hne
    simp at hne

end Span
end Plotline.Script
