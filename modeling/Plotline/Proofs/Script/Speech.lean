import Plotline.Proofs.Script.Literals
import Plotline.Script.Speech

/-!
# Words in the literals of a text

The words of a text are those of its literals in double quotes, which are found from left to right. A line may be read
by itself or as a part of the text that it stands in; then a literal that begins further up may run into the line, and
one of the line may run on below it.

* `wordCount_literal`, `wordCount_cons`: the words of a text that begins with a literal, or with any other character.
* `Outside`: reading a text comes to a rest of it between two literals.
* `Resumes`, `exists_resumes`: behind a line there is a rest with all the words of the text that the line does not have.
* `total_wordCount_le`: lines that begin outside the literals of a text do not have more words than the text.
-/

namespace Plotline.Script
open Text

/-! ## Literals in double quotes -/

/-- No literal in double quotes stands at the head of a text. -/
def OpensNone (s : List Char) : Prop := ∀ body rest, LiteralBody '"' body → s ≠ '"' :: body ++ '"' :: rest

theorem literal_or_opensNone (s : List Char) :
    (∃ body rest, LiteralBody '"' body ∧ s = '"' :: body ++ '"' :: rest) ∨ OpensNone s := by
  by_cases h : ∃ body rest, LiteralBody '"' body ∧ s = '"' :: body ++ '"' :: rest
  · exact Or.inl h
  · exact Or.inr fun body rest hbody heq => h ⟨body, rest, hbody, heq⟩

theorem opensNone_cons {c : Char} (hc : c ≠ '"') (s : List Char) : OpensNone (c :: s) :=
  fun _ _ _ heq => hc (List.cons.inj heq).1

theorem closing?_eq_none_iff {s : List Char} : closing? '"' 1 s = none ↔ OpensNone ('"' :: s) := by
  constructor
  · intro hnone body rest hbody heq
    rw [(List.cons.inj heq).2] at hnone
    change closing? '"' 1 (body ++ '"' :: rest) = none at hnone
    rw [closing?_body (by decide) hbody] at hnone
    cases hnone
  · intro hnone
    cases hclosing : closing? '"' 1 s with
    | none => rfl
    | some n =>
        obtain ⟨body, rest, hbody, rfl, -⟩ := exists_body_of_closing? (by decide) hclosing
        exact absurd rfl (hnone body rest hbody)

theorem LiteralBody.append_inj {body body' s s' : List Char} (h : LiteralBody '"' body) (h' : LiteralBody '"' body')
    (heq : body ++ '"' :: s = body' ++ '"' :: s') : body = body' ∧ s = s' := by
  have hlength := (closing?_body (by decide) h s 1).symm.trans (heq ▸ closing?_body (by decide) h' s' 1)
  obtain ⟨hbody, hrest⟩ := List.append_inj heq (by have := Option.some.inj hlength; omega)
  exact ⟨hbody, (List.cons.inj hrest).2⟩

theorem length_quoted (body s : List Char) : ('"' :: body ++ '"' :: s).length = body.length + s.length + 2 := by
  rw [List.length_append, List.length_cons, List.length_cons]
  omega

/-- A quote with nothing but the beginning of a body behind it opens nothing. -/
theorem LiteralBody.opensNone {body : List Char} (h : LiteralBody '"' body) {u : List Char} (hu : u <+: body) :
    OpensNone ('"' :: u) := by
  have hclosing : ∀ seen, closing? '"' seen body = none := by
    clear hu
    induction h with
    | nil => intro seen; rfl
    | char hc hback _ ih => intro seen; rw [closing?_char hc hback, ih]
    | escape hd _ ih => intro seen; rw [closing?_escape (by decide), if_neg hd, ih]
  obtain ⟨v, rfl⟩ := hu
  intro b rest hb heq
  have hnone := closing?_eq_none_iff.1 (hclosing 1)
  apply hnone b (rest ++ v) hb
  rw [← List.cons_append, heq, List.append_assoc]
  rfl

/-! ## Words -/

theorem spokenFrom_eq (found : List (List Char)) (n : Nat) (s : List Char) :
    spokenFrom found n s = found.reverse ++ spokenFrom [] n s := by
  induction s generalizing found n with
  | nil => cases n <;> simp [spokenFrom]
  | cons c r ih =>
      cases n with
      | succ n => exact ih found n
      | zero =>
          unfold spokenFrom
          split
          · split
            · rename_i n _
              rw [ih (_ :: found), ih [_]]
              simp
            · exact ih found 0
          · exact ih found 0

theorem spokenFrom_append (found : List (List Char)) (t s : List Char) :
    spokenFrom found t.length (t ++ s) = spokenFrom found 0 s := by
  induction t with
  | nil => rfl
  | cons c t ih => exact ih

theorem spoken_literal {body : List Char} (h : LiteralBody '"' body) (s : List Char) :
    spoken ('"' :: body ++ '"' :: s) = body :: spoken s := by
  have htake : (body ++ '"' :: s).take (1 + body.length + 1 - 2) = body := by
    rw [show 1 + body.length + 1 - 2 = body.length by omega, List.take_left]
  have hskip : spokenFrom [body] (1 + body.length + 1 - 1) (body ++ '"' :: s) = spokenFrom [body] 0 s := by
    have hlength : 1 + body.length + 1 - 1 = (body ++ ['"']).length := by
      rw [List.length_append, List.length_singleton]
      omega
    rw [hlength, List.append_cons body '"' s, spokenFrom_append]
  show spokenFrom [] 0 ('"' :: (body ++ '"' :: s)) = _
  unfold spokenFrom
  rw [if_pos rfl, closing?_body (by decide) h]
  show spokenFrom [_] _ _ = _
  rw [htake, hskip, spokenFrom_eq]
  rfl

theorem spoken_cons {c : Char} {s : List Char} (h : OpensNone (c :: s)) : spoken (c :: s) = spoken s := by
  show spokenFrom [] 0 (c :: s) = _
  unfold spokenFrom
  split
  · rename_i hc
    subst hc
    rw [closing?_eq_none_iff.2 h]
    rfl
  · rfl

theorem wordCount_literal {body : List Char} (h : LiteralBody '"' body) (s : List Char) :
    wordCount ('"' :: body ++ '"' :: s) = (words body).length + wordCount s := by
  unfold wordCount
  rw [spoken_literal h]
  rfl

theorem wordCount_cons {c : Char} {s : List Char} (h : OpensNone (c :: s)) : wordCount (c :: s) = wordCount s := by
  unfold wordCount
  rw [spoken_cons h]

/-- There are no words in the beginning of a body: every quote in it stands behind a backslash. -/
theorem LiteralBody.wordCount_eq_zero {body : List Char} (h : LiteralBody '"' body) {u : List Char} (hu : u <+: body) :
    wordCount u = 0 := by
  induction h generalizing u with
  | nil =>
      obtain rfl := List.prefix_nil.1 hu
      rfl
  | @char c s hc _ _ ih =>
      rcases List.prefix_cons_iff.1 hu with rfl | ⟨v, rfl, hv⟩
      · rfl
      · rw [wordCount_cons (opensNone_cons hc v), ih hv]
  | @escape c s _ hs ih =>
      rcases List.prefix_cons_iff.1 hu with rfl | ⟨v, rfl, hv⟩
      · rfl
      rw [wordCount_cons (opensNone_cons (by decide) v)]
      rcases List.prefix_cons_iff.1 hv with rfl | ⟨w, rfl, hw⟩
      · rfl
      by_cases hc : c = '"'
      · subst hc
        rw [wordCount_cons (hs.opensNone hw), ih hw]
      · rw [wordCount_cons (opensNone_cons hc w), ih hw]

/-! ## Rests of a text -/

/-- Reading a text from left to right comes to a rest of it, outside literals in double quotes. -/
inductive Outside : List Char → List Char → Prop
  | here {s : List Char} : Outside s s
  | literal {body s r : List Char} : LiteralBody '"' body → Outside s r → Outside ('"' :: body ++ '"' :: s) r
  | char {c : Char} {s r : List Char} : OpensNone (c :: s) → Outside s r → Outside (c :: s) r

namespace Outside
variable {s r : List Char}

theorem length_le (h : Outside s r) : r.length ≤ s.length := by
  induction h with
  | here => exact Nat.le_refl _
  | literal _ _ ih =>
      rw [length_quoted]
      omega
  | char _ _ ih =>
      rw [List.length_cons]
      omega

theorem wordCount_le (h : Outside s r) : wordCount r ≤ wordCount s := by
  induction h with
  | here => exact Nat.le_refl _
  | literal hbody _ ih =>
      rw [wordCount_literal hbody]
      omega
  | char hnone _ ih => rwa [wordCount_cons hnone]

theorem behind_literal {body : List Char} (hbody : LiteralBody '"' body) (h : Outside ('"' :: body ++ '"' :: s) r)
    (hr : r.length < ('"' :: body ++ '"' :: s).length) : Outside s r := by
  generalize htext : '"' :: body ++ '"' :: s = text at h
  cases h with
  | here => exact absurd hr (htext ▸ Nat.lt_irrefl _)
  | literal hbody' h =>
      obtain ⟨-, rfl⟩ := hbody.append_inj hbody' (List.cons.inj htext).2
      exact h
  | char hnone _ => exact absurd htext.symm (hnone body s hbody)

theorem behind_char {c : Char} (hnone : OpensNone (c :: s)) (h : Outside (c :: s) r)
    (hr : r.length < (c :: s).length) : Outside s r := by
  generalize htext : c :: s = text at h
  cases h with
  | here => exact absurd hr (htext ▸ Nat.lt_irrefl _)
  | literal hbody h => exact absurd htext (hnone _ _ hbody)
  | char _ h =>
      obtain ⟨-, rfl⟩ := List.cons.inj htext
      exact h

/-- Of two rests, reading comes to the shorter one from the longer one. -/
theorem onward {r' : List Char} (h : Outside s r) (h' : Outside s r') (hle : r'.length ≤ r.length) :
    Outside r r' := by
  induction h with
  | here => exact h'
  | literal hbody h ih =>
      have hlength := h.length_le
      refine ih (h'.behind_literal hbody ?_) hle
      rw [length_quoted]
      omega
  | char hnone h ih =>
      have hlength := h.length_le
      refine ih (h'.behind_char hnone ?_) hle
      rw [List.length_cons]
      omega

end Outside

/-! ## Behind a line -/

/-- Reading resumes at a rest behind a line: the rest has all the words of the text that the line does not have, and
reading passes it on the way to any rest below the line. -/
structure Resumes (l tail r : List Char) : Prop where
  words : wordCount l + wordCount r ≤ wordCount (l ++ tail)
  passed : ∀ r', r'.length ≤ tail.length → Outside (l ++ tail) r' → Outside r r'

namespace Resumes
variable {l tail r : List Char}

theorem nil (tail : List Char) : Resumes [] tail tail := ⟨Nat.le_of_eq (Nat.zero_add _), fun _ _ h => h⟩

theorem char {c : Char} (hnone : OpensNone (c :: (l ++ tail))) (h : Resumes l tail r) : Resumes (c :: l) tail r := by
  have hline : OpensNone (c :: l) := by
    intro body rest hbody heq
    apply hnone body (rest ++ tail) hbody
    rw [← List.cons_append, heq, List.append_assoc]
    rfl
  constructor
  · rw [wordCount_cons hline, List.cons_append, wordCount_cons hnone]
    exact h.words
  · intro r' hr' hreads
    apply h.passed r' hr'
    apply hreads.behind_char hnone
    rw [List.length_cons, List.length_append]
    omega

theorem literal {body : List Char} (hbody : LiteralBody '"' body) (h : Resumes l tail r) :
    Resumes ('"' :: body ++ '"' :: l) tail r := by
  have htext : '"' :: body ++ '"' :: l ++ tail = '"' :: body ++ '"' :: (l ++ tail) := by simp
  constructor
  · have hwords := h.words
    rw [htext, wordCount_literal hbody, wordCount_literal hbody]
    omega
  · intro r' hr' hreads
    rw [htext] at hreads
    apply h.passed r' hr'
    apply hreads.behind_literal hbody
    rw [length_quoted, List.length_append]
    omega

theorem unclosed {body s : List Char} (hbody : LiteralBody '"' body) (hl : l <+: body)
    (htext : '"' :: (l ++ tail) = '"' :: body ++ '"' :: s) : Resumes ('"' :: l) tail s := by
  constructor
  · rw [wordCount_cons (hbody.opensNone hl), hbody.wordCount_eq_zero hl, List.cons_append, htext,
      wordCount_literal hbody]
    omega
  · intro r' hr' hreads
    rw [List.cons_append, htext] at hreads
    apply hreads.behind_literal hbody
    rw [← htext, List.length_cons, List.length_append]
    omega

end Resumes

theorem exists_resumes (l tail : List Char) : ∃ r, Resumes l tail r := by
  -- A literal takes several characters of the line at once, so the induction is on its length.
  induction hn : l.length using Nat.strongRecOn generalizing l with
  | _ n ih =>
      rcases l with _ | ⟨c, l⟩
      · exact ⟨tail, .nil tail⟩
      rw [List.length_cons] at hn
      rcases literal_or_opensNone (c :: (l ++ tail)) with ⟨body, s, hbody, htext⟩ | hnone
      · obtain ⟨rfl, hrest⟩ := List.cons.inj htext
        rcases List.append_eq_append_iff.1 (show l ++ tail = body ++ '"' :: s from hrest) with
          ⟨z, rfl, -⟩ | ⟨_ | ⟨d, z⟩, rfl, hz⟩
        · exact ⟨s, .unclosed hbody (List.prefix_append l z) htext⟩
        · exact ⟨s, .unclosed hbody (by simp) htext⟩
        · obtain ⟨rfl, -⟩ := List.cons.inj hz
          have hlength : z.length < n := by
            rw [List.length_append, List.length_cons] at hn
            omega
          obtain ⟨r, hr⟩ := ih z.length hlength z rfl
          exact ⟨r, hr.literal hbody⟩
      · obtain ⟨r, hr⟩ := ih l.length (by omega) l rfl
        exact ⟨r, hr.char hnone⟩

/-! ## Some lines of a text -/

def textFrom (l : List Char) (below : List (List Char)) : List Char := l ++ below.flatMap fun k => '\n' :: k

theorem eq_textFrom_of_lines {s : List Char} {l : List Char} {below : List (List Char)} (h : lines s = l :: below) :
    s = textFrom l below := by
  have hopened : ∀ (s opened : List Char), ∃ l below, linesAfter opened s = l :: below ∧
      opened.reverse ++ s = textFrom l below := by
    intro s
    induction s with
    | nil => exact fun opened => ⟨_, [], rfl, rfl⟩
    | cons c s ih =>
        intro opened
        by_cases hc : c = '\n'
        · obtain ⟨l, below, hlines, htext⟩ := ih []
          refine ⟨opened.reverse, l :: below, ?_, ?_⟩
          · rw [linesAfter, if_pos hc, hlines]
          · rw [hc, show s = textFrom l below from htext]
            rfl
        · obtain ⟨l, below, hlines, htext⟩ := ih (c :: opened)
          refine ⟨l, below, ?_, ?_⟩
          · rw [linesAfter, if_neg hc, hlines]
          · rw [← htext]
            simp
  obtain ⟨l', below', hlines, htext⟩ := hopened s []
  obtain ⟨rfl, rfl⟩ := List.cons.inj (hlines.symm.trans h)
  exact htext

/-- The double quotes of a line are paired on the line. -/
inductive Paired : List Char → Prop
  | nil : Paired []
  | char {c : Char} {l : List Char} : c ≠ '"' → Paired l → Paired (c :: l)
  | literal {body l : List Char} : LiteralBody '"' body → Paired l → Paired ('"' :: body ++ '"' :: l)

theorem literalBody_of_notMem {q : Char} {body : List Char} (hq : q ∉ body) (hback : '\\' ∉ body) :
    LiteralBody q body := by
  induction body with
  | nil => exact .nil
  | cons c body ih =>
      rw [List.mem_cons, not_or] at hq hback
      exact .char (Ne.symm hq.1) (Ne.symm hback.1) (ih hq.2 hback.2)

theorem paired_of_notMem {l : List Char} (h : '"' ∉ l) : Paired l := by
  induction l with
  | nil => exact .nil
  | cons c l ih =>
      rw [List.mem_cons, not_or] at h
      exact .char (Ne.symm h.1) (ih h.2)

theorem Paired.outside {l : List Char} (h : Paired l) {s r : List Char} (hs : Outside s r) : Outside (l ++ s) r := by
  induction h with
  | nil => exact hs
  | char hc _ ih => exact .char (opensNone_cons hc _) ih
  | literal hbody _ ih =>
      rw [List.append_assoc]
      exact .literal hbody ih

/-- A line begins outside the literals of a text if the quotes of each line above it are paired. -/
theorem outside_of_paired {s l : List Char} {front below : List (List Char)} (h : lines s = front ++ l :: below)
    (hpaired : ∀ k ∈ front, Paired k) : Outside s (textFrom l below) := by
  have hreads : ∀ front : List (List Char), (∀ k ∈ front, Paired k) →
      Outside ((front ++ l :: below).flatMap fun k => '\n' :: k) (textFrom l below) := by
    intro front hfront
    induction front with
    | nil => exact .char (opensNone_cons (by decide) _) .here
    | cons k front ih =>
        have hbelow := ih fun j hj => hfront j (List.mem_cons_of_mem k hj)
        exact .char (opensNone_cons (by decide) _) ((hfront k List.mem_cons_self).outside hbelow)
  cases front with
  | nil =>
      rw [eq_textFrom_of_lines h]
      exact .here
  | cons k front =>
      rw [eq_textFrom_of_lines h]
      apply (hpaired k List.mem_cons_self).outside
      exact hreads front fun j hj => hpaired j (List.mem_cons_of_mem k hj)

/-- Lines that begin outside the literals of a text do not have more words than the text. -/
theorem total_wordCount_le (p : List Char → Bool) {ls : List (List Char)} {text : List Char}
    (h : ∀ front l below, ls = front ++ l :: below → p l = true → Outside text (textFrom l below)) :
    Number.total ((ls.filter p).map wordCount) ≤ wordCount text := by
  induction ls generalizing text with
  | nil => exact Nat.zero_le _
  | cons l ls ih =>
      cases hp : p l with
      | false =>
          rw [List.filter_cons_of_neg (by simp [hp])]
          exact ih fun front k below heq hk => h (l :: front) k below (by rw [heq]; rfl) hk
      | true =>
          have hhere : Outside text (textFrom l ls) := h [] l ls rfl hp
          obtain ⟨r, hr⟩ := exists_resumes l (ls.flatMap fun k => '\n' :: k)
          have hrest : Number.total ((ls.filter p).map wordCount) ≤ wordCount r := by
            apply ih
            rintro front k below rfl hk
            have hlength : (textFrom k below).length ≤
                ((front ++ k :: below).flatMap fun k => '\n' :: k).length := by
              unfold textFrom
              simp only [List.flatMap_append, List.flatMap_cons, List.length_append, List.length_cons]
              omega
            have hlonger : ((front ++ k :: below).flatMap fun k => '\n' :: k).length ≤
                (textFrom l (front ++ k :: below)).length := by
              rw [textFrom, List.length_append]
              omega
            apply hr.passed _ hlength
            exact hhere.onward (h (l :: front) k below rfl hk) (Nat.le_trans hlength hlonger)
          have hwords := hr.words
          have htext := hhere.wordCount_le
          rw [List.filter_cons_of_pos hp]
          show wordCount l + Number.total ((ls.filter p).map wordCount) ≤ wordCount text
          unfold textFrom at htext
          omega

end Plotline.Script
