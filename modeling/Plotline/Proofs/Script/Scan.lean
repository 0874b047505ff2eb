import Mathlib.Algebra.Group.Nat.Even
import Mathlib.Data.List.Induction
import Plotline.Proofs.Script.Literals

/-!
# Masking as a scan

A line is scanned from left to right, and whether a quote closes a literal is read off the backslashes in front of it.

* `backslashes`: the number of backslashes that a text ends with; an odd number takes the next character away.
* `Quiet`: no quote of a kind stands in a text unescaped; `literalBody_iff` says so of the body of a literal.
* `Scan`: what is left of a line by the scan, with one rule for each way to go on.
* `Keeps`: what is left of a piece of a line, each character in its place or blanked; the scan keeps (`Scan.keeps`).
* `Scan.self`: scanning what is left changes nothing.
* `mask_scan`: the scan ends for every line in the masked line, which has no comment and scans to itself.
-/

namespace Plotline.Script

/-! ## Escapes -/

/-- The number of backslashes at the end of a text. -/
def backslashes (s : List Char) : Nat := (s.reverse.takeWhile (· = '\\')).length

theorem backslashes_concat (s : List Char) (c : Char) :
    backslashes (s ++ [c]) = if c = '\\' then backslashes s + 1 else 0 := by
  unfold backslashes
  rw [List.reverse_concat, List.takeWhile_cons]
  by_cases hc : c = '\\' <;> simp [hc]

theorem even_backslashes_singleton {c : Char} (hc : c ≠ '\\') : Even (backslashes [c]) := by
  simp [backslashes, hc]

theorem even_backslashes_escape (c : Char) : Even (backslashes ['\\', c]) := by
  by_cases hc : c = '\\'
  · subst hc
    decide
  · simp [backslashes, hc]

/-- Backslashes in front of a text that pair up make no difference to what follows the text. -/
theorem even_backslashes_append {t : List Char} (ht : Even (backslashes t)) (s : List Char) :
    Even (backslashes (t ++ s)) ↔ Even (backslashes s) := by
  induction s using List.reverseRecOn with
  | nil =>
      rw [List.append_nil]
      exact iff_of_true ht ⟨0, rfl⟩
  | append_singleton s c ih =>
      rw [← List.append_assoc, backslashes_concat, backslashes_concat]
      split
      · rw [Nat.even_add_one, Nat.even_add_one, ih]
      · rfl

theorem even_backslashes_behind (u t : List Char) {c : Char} (hc : c ≠ '\\') (s : List Char) :
    Even (backslashes (u ++ (t ++ c :: s))) ↔ Even (backslashes s) := by
  have heven : Even (backslashes (u ++ t ++ [c])) := by
    rw [backslashes_concat, if_neg hc]
    exact ⟨0, rfl⟩
  rw [show u ++ (t ++ c :: s) = u ++ t ++ [c] ++ s by simp, even_backslashes_append heven]

/-- No quote `q` stands in the text but behind an odd number of backslashes. -/
def Quiet (q : Char) (s : List Char) : Prop := ∀ front back, s = front ++ q :: back → ¬Even (backslashes front)

section Quiet
variable {q : Char}

theorem Quiet.nil : Quiet q [] := by
  intro front back h
  simp at h

theorem quiet_singleton {c : Char} (hc : c ≠ q) : Quiet q [c] := by
  intro front back h
  have hmem : q ∈ [c] := h ▸ by simp
  exact absurd (List.mem_singleton.1 hmem).symm hc

theorem quiet_escape (hq : q ≠ '\\') (c : Char) : Quiet q ['\\', c] := by
  intro front back h
  rcases front with _ | ⟨d, front⟩
  · exact absurd (List.cons.inj h).1.symm hq
  · obtain ⟨rfl, h⟩ := List.cons.inj h
    rcases front with _ | ⟨d, front⟩
    · decide
    · simp at h

theorem quiet_append {t : List Char} (heven : Even (backslashes t)) (hquiet : Quiet q t) {s : List Char} :
    Quiet q (t ++ s) ↔ Quiet q s := by
  constructor
  · intro h front back hs
    rw [← even_backslashes_append heven]
    apply h _ back
    rw [hs, List.append_assoc]
  · intro h front back hs
    rcases List.append_eq_append_iff.1 hs with ⟨m, rfl, hm⟩ | ⟨m, rfl, hm⟩
    · rw [even_backslashes_append heven]
      exact h m back hm
    · cases m with
      | nil => exact absurd ⟨0, rfl⟩ (h [] back hm.symm)
      | cons c m =>
          obtain rfl := (List.cons.inj hm).1
          exact hquiet front m rfl

/-- A text is quiet, or some quote in it is the first that no backslash takes away. -/
theorem quiet_or (q : Char) (s : List Char) :
    Quiet q s ∨ ∃ body rest, Even (backslashes body) ∧ Quiet q body ∧ s = body ++ q :: rest := by
  induction hn : s.length using Nat.strongRecOn generalizing s with
  | _ n ih =>
      by_cases h : Quiet q s
      · exact Or.inl h
      · right
        simp only [Quiet, not_forall, not_not] at h
        obtain ⟨front, back, rfl, heven⟩ := h
        rw [List.length_append, List.length_cons] at hn
        rcases ih front.length (by omega) front rfl with hquiet | ⟨body, rest, hbody, hquiet, rfl⟩
        · exact ⟨front, back, heven, hquiet, rfl⟩
        · exact ⟨body, rest ++ q :: back, hbody, hquiet, by simp⟩

/-- Reading on with escapes, a literal goes on up to the first quote that no backslash takes away. -/
theorem even_and_quiet_of_literalBody (hq : q ≠ '\\') {body : List Char} (h : LiteralBody q body) :
    Even (backslashes body) ∧ Quiet q body := by
  induction h with
  | nil => exact ⟨⟨0, rfl⟩, .nil⟩
  | @char c s hc hback _ ih =>
      have heven := even_backslashes_singleton hback
      exact ⟨(even_backslashes_append heven s).2 ih.1, (quiet_append heven (quiet_singleton hc)).2 ih.2⟩
  | @escape c s _ _ ih =>
      have heven := even_backslashes_escape c
      exact ⟨(even_backslashes_append heven s).2 ih.1, (quiet_append heven (quiet_escape hq c)).2 ih.2⟩

theorem literalBody_of_quiet (hq : q ≠ '\\') : ∀ {body : List Char}, '\n' ∉ body → Even (backslashes body) →
    Quiet q body → LiteralBody q body
  | [], _, _, _ => .nil
  | c :: body, hline, heven, hquiet => by
    have hc : c ≠ q := by
      rintro rfl
      exact hquiet [] body rfl ⟨0, rfl⟩
    by_cases hback : c = '\\'
    · subst hback
      match body, hline, heven, hquiet with
      | [], _, heven, _ => exact absurd heven (by decide)
      | d :: body, hline, heven, hquiet =>
          have hpair := even_backslashes_escape d
          apply LiteralBody.escape
          · rintro rfl
            simp at hline
          · apply literalBody_of_quiet hq
            · exact fun hmem => hline (List.mem_cons_of_mem _ (List.mem_cons_of_mem d hmem))
            · exact (even_backslashes_append hpair body).1 heven
            · exact (quiet_append hpair (quiet_escape hq d)).1 hquiet
    · have hone := even_backslashes_singleton hback
      apply LiteralBody.char hc hback
      apply literalBody_of_quiet hq
      · exact fun hmem => hline (List.mem_cons_of_mem c hmem)
      · exact (even_backslashes_append hone body).1 heven
      · exact (quiet_append hone (quiet_singleton hc)).1 hquiet

/-- The body of a literal is a text that ends between escapes and has no quote of its kind outside of them. -/
theorem literalBody_iff (hq : q ≠ '\\') {body : List Char} (hline : '\n' ∉ body) :
    LiteralBody q body ↔ Even (backslashes body) ∧ Quiet q body :=
  ⟨even_and_quiet_of_literalBody hq, fun h => literalBody_of_quiet hq hline h.1 h.2⟩

end Quiet

/-! ## The scan -/

/-- What a scan from left to right leaves of a line. -/
inductive Scan : List Char → List Char → Prop
  | done : Scan [] []
  | comment (rest : List Char) : Scan ('#' :: rest) []
  | literal {q : Char} {body rest out : List Char} : q = '"' ∨ q = '\'' → Even (backslashes body) → Quiet q body →
      Scan rest out → Scan (q :: body ++ q :: rest) (List.replicate (body.length + 2) ' ' ++ out)
  | unclosed {q : Char} {rest out : List Char} : q = '"' ∨ q = '\'' → Quiet q rest → Scan rest out →
      Scan (q :: rest) (q :: out)
  | plain {c : Char} {rest out : List Char} : ¬(c = '"' ∨ c = '\'') → c ≠ '#' → Scan rest out →
      Scan (c :: rest) (c :: out)

/-- Where no literal opens, the mask shows the first character. -/
theorem mask_cons {c : Char} {s : List Char} (hnone : ∀ t rest, IsLiteral t → c :: s ≠ t ++ rest) (hc : c ≠ '#') :
    mask (c :: s) = c :: mask s := by
  have hlength : literalLength? (c :: s) = none := by
    rcases literal_or_plain c s with ⟨t, rest, ht, heq⟩ | ⟨hlength, -⟩
    · exact absurd heq (hnone t rest ht)
    · exact hlength
  have hblank : blankLiterals (c :: s) = c :: blankLiterals s := by
    show blankFrom 0 (c :: s) = _
    rw [blankFrom, hlength]
    rfl
  unfold mask
  rw [hblank, List.takeWhile_cons_of_pos (by simpa using hc)]

theorem mask_literal {t : List Char} (ht : IsLiteral t) (s : List Char) :
    mask (t ++ s) = List.replicate t.length ' ' ++ mask s := by
  unfold mask
  rw [blankLiterals_literal ht, List.takeWhile_append_of_pos]
  intro c hc
  rw [List.eq_of_mem_replicate hc]
  decide

theorem ne_literal_append_of_quiet {q : Char} {s : List Char} (hquote : q = '"' ∨ q = '\'') (h : Quiet q s) :
    ∀ t rest, IsLiteral t → q :: s ≠ t ++ rest := by
  rintro t rest ⟨q', body, hq', hbody, rfl⟩ heq
  rw [List.append_assoc, List.cons_append] at heq
  obtain ⟨rfl, rfl⟩ := List.cons.inj heq
  apply h body rest
  · rfl
  · exact (even_and_quiet_of_literalBody (ne_backslash_of_quote hquote) hbody).1

theorem ne_literal_append_of_not_quote {c : Char} (hc : ¬(c = '"' ∨ c = '\'')) (s : List Char) :
    ∀ t rest, IsLiteral t → c :: s ≠ t ++ rest := by
  rintro t rest ⟨q, body, hq, -, rfl⟩ heq
  obtain ⟨rfl, -⟩ := List.cons.inj heq
  exact hc hq

theorem Scan.eq_mask {line out : List Char} (h : Scan line out) (hline : '\n' ∉ line) : out = mask line := by
  induction h with
  | done => rfl
  | comment rest =>
      have hblank : blankLiterals ('#' :: rest) = '#' :: blankLiterals rest := rfl
      unfold mask
      rw [hblank]
      rfl
  | @literal q body rest out hq heven hquiet _ ih =>
      simp only [List.cons_append, List.mem_cons, List.mem_append, not_or] at hline
      have hbody : LiteralBody q body := (literalBody_iff (ne_backslash_of_quote hq) hline.2.1).2 ⟨heven, hquiet⟩
      have hsplit : q :: body ++ q :: rest = (q :: body ++ [q]) ++ rest := by simp
      have hlength : (q :: body ++ [q]).length = body.length + 2 := by simp
      rw [hsplit, mask_literal ⟨q, body, hq, hbody, rfl⟩, hlength, ih hline.2.2.2]
  | unclosed hq hquiet _ ih =>
      rw [mask_cons (ne_literal_append_of_quiet hq hquiet) (by rcases hq with rfl | rfl <;> decide),
        ih fun hmem => hline (List.mem_cons_of_mem _ hmem)]
  | plain hc hhash _ ih =>
      rw [mask_cons (ne_literal_append_of_not_quote hc _) hhash, ih fun hmem => hline (List.mem_cons_of_mem _ hmem)]

theorem exists_scan (line : List Char) : ∃ out, Scan line out := by
  induction hn : line.length using Nat.strongRecOn generalizing line with
  | _ n ih =>
      rcases line with _ | ⟨c, s⟩
      · exact ⟨[], .done⟩
      rw [List.length_cons] at hn
      obtain ⟨out, hout⟩ := ih s.length (by omega) s rfl
      by_cases hq : c = '"' ∨ c = '\''
      · rcases quiet_or c s with hquiet | ⟨body, rest, heven, hquiet, rfl⟩
        · exact ⟨c :: out, .unclosed hq hquiet hout⟩
        · rw [List.length_append, List.length_cons] at hn
          obtain ⟨out, hout⟩ := ih rest.length (by omega) rest rfl
          exact ⟨_, .literal hq heven hquiet hout⟩
      · by_cases hhash : c = '#'
        · subst hhash
          exact ⟨[], .comment s⟩
        · exact ⟨c :: out, .plain hq hhash hout⟩

/-! ## What is left of a line -/

/-- What is left of a line and no space stands as far from the beginning as in the line, and it is escaped if and only
if it is in the line, whatever stands in front of both. -/
def Keeps (line out : List Char) : Prop :=
  ∀ front c back, out = front ++ c :: back → c ≠ ' ' → ∃ front' back', line = front' ++ c :: back' ∧
    front'.length = front.length ∧ ∀ t, Even (backslashes (t ++ front)) ↔ Even (backslashes (t ++ front'))

namespace Keeps
variable {line out : List Char}

theorem nil (line : List Char) : Keeps line [] := by
  intro front c back heq
  simp at heq

theorem cons (h : Keeps line out) (d : Char) : Keeps (d :: line) (d :: out) := by
  intro front c back heq hc
  rcases front with _ | ⟨e, front⟩
  · obtain ⟨rfl, -⟩ := List.cons.inj heq
    exact ⟨[], line, rfl, rfl, fun _ => Iff.rfl⟩
  · obtain ⟨rfl, hout⟩ := List.cons.inj heq
    obtain ⟨front', back', rfl, hlength, hparity⟩ := h front c back hout hc
    refine ⟨d :: front', back', rfl, congrArg Nat.succ hlength, fun t => ?_⟩
    have hboth := hparity (t ++ [d])
    rwa [List.append_assoc, List.append_assoc] at hboth

/-- A span that ends with no backslash may become spaces. -/
theorem span (h : Keeps line out) (t : List Char) {d : Char} (hd : d ≠ '\\') :
    Keeps (t ++ d :: line) (List.replicate (t.length + 1) ' ' ++ out) := by
  intro front c back heq hc
  obtain ⟨m, rfl, hm⟩ : ∃ m, front = List.replicate (t.length + 1) ' ' ++ m ∧ out = m ++ c :: back := by
    rcases List.append_eq_append_iff.1 heq with h | ⟨m, hspaces, hm⟩
    · exact h
    · cases m with
      | nil => exact ⟨[], by simpa using hspaces.symm, by simpa using hm.symm⟩
      | cons e m =>
          obtain rfl := (List.cons.inj hm).1
          have hmem : c ∈ List.replicate (t.length + 1) ' ' := hspaces ▸ by simp
          exact absurd (List.eq_of_mem_replicate hmem) hc
  obtain ⟨front', back', rfl, hlength, hparity⟩ := h m c back hm hc
  refine ⟨t ++ d :: front', back', by simp, ?_, fun u => ?_⟩
  · simp only [List.length_append, List.length_cons, List.length_replicate]
    omega
  · rw [List.replicate_succ', List.append_assoc, List.singleton_append, even_backslashes_behind u _ (by decide),
      even_backslashes_behind u t hd]
    exact hparity []

end Keeps

namespace Scan
variable {line out : List Char}

theorem keeps (h : Scan line out) : Keeps line out := by
  induction h with
  | done => exact .nil []
  | comment rest => exact .nil _
  | @literal q body rest out hq _ _ _ ih =>
      exact ih.span (q :: body) (ne_backslash_of_quote hq)
  | unclosed _ _ _ ih => exact ih.cons _
  | plain _ _ _ ih => exact ih.cons _

theorem length_le (h : Scan line out) : out.length ≤ line.length := by
  induction h with
  | done => exact Nat.le_refl 0
  | comment rest => exact Nat.zero_le _
  | literal _ _ _ _ ih =>
      simp only [List.length_append, List.length_cons, List.length_replicate]
      omega
  | unclosed _ _ _ ih => exact Nat.succ_le_succ ih
  | plain _ _ _ ih => exact Nat.succ_le_succ ih

theorem hash_notMem (h : Scan line out) : '#' ∉ out := by
  induction h with
  | done => simp
  | comment rest => simp
  | literal _ _ _ _ ih => simpa using ih
  | unclosed hq _ _ ih => rcases hq with rfl | rfl <;> simpa using ih
  | plain _ hhash _ ih => simpa [Ne.symm hhash] using ih

theorem spaces_append (h : Scan line out) : ∀ n, Scan (List.replicate n ' ' ++ line) (List.replicate n ' ' ++ out)
  | 0 => h
  | n + 1 => .plain (by decide) (by decide) (h.spaces_append n)

/-- A quote that is left in a line closes with no other one that is left. -/
theorem self (h : Scan line out) : Scan out out := by
  induction h with
  | done => exact .done
  | comment rest => exact .done
  | literal _ _ _ _ ih => exact ih.spaces_append _
  | @unclosed q rest out hq hquiet hrest ih =>
      apply Scan.unclosed hq _ ih
      intro front back hout heven
      -- A quote that would close here stands in the line as well, and closes there.
      have hspace : q ≠ ' ' := by rcases hq with rfl | rfl <;> decide
      obtain ⟨front', back', hsplit, -, hparity⟩ := hrest.keeps front q back hout hspace
      exact hquiet front' back' hsplit ((hparity []).1 heven)
  | plain hc hhash _ ih => exact .plain hc hhash ih

end Scan

/-- **Masking is scanning.** The masked line is what the scan leaves of a line, and nothing else is. It is no longer
than the line, shows each character in its place or a space there, has no comment, and is its own masked line. -/
theorem mask_scan {s : List Char} (hline : '\n' ∉ s) :
    (∀ out, Scan s out ↔ out = mask s) ∧ (mask s).length ≤ s.length ∧
      (∀ (k : Nat) (c : Char), (mask s)[k]? = some c → c = ' ' ∨ s[k]? = some c) ∧ '#' ∉ mask s ∧
      mask (mask s) = mask s := by
  have hscan : Scan s (mask s) := by
    obtain ⟨out, hout⟩ := exists_scan s
    exact hout.eq_mask hline ▸ hout
  have hplaces : ∀ (k : Nat) (c : Char), (mask s)[k]? = some c → c = ' ' ∨ s[k]? = some c := by
    intro k c hk
    by_cases hc : c = ' '
    · exact Or.inl hc
    · right
      obtain ⟨front, back, hout, rfl⟩ : ∃ front back, mask s = front ++ c :: back ∧ front.length = k := by
        obtain ⟨hlt, rfl⟩ := List.getElem?_eq_some_iff.1 hk
        refine ⟨(mask s).take k, (mask s).drop (k + 1), ?_, ?_⟩
        · rw [← List.drop_eq_getElem_cons hlt, List.take_append_drop]
        · rw [List.length_take]
          omega
      obtain ⟨front', back', hsplit, hlength, -⟩ := hscan.keeps front c back hout hc
      rw [hsplit, ← hlength]
      simp
  have hfeed : '\n' ∉ mask s := by
    intro hmem
    obtain ⟨k, hk⟩ := List.getElem?_of_mem hmem
    rcases hplaces k _ hk with h | h
    · cases h
    · exact hline (List.mem_of_getElem? h)
  refine ⟨fun out => ⟨fun h => h.eq_mask hline, ?_⟩, hscan.length_le, hplaces, hscan.hash_notMem,
    (hscan.self.eq_mask hfeed).symm⟩
  rintro rfl
  exact hscan

/-- Literals of both kinds, an escaped quote in one, two quotes that nothing closes, and a comment. -/
def note : List Char := "e \"a # \\\" b\" 'c' it's \"\\\" # d".toList

theorem mask_scan_note : '\n' ∉ note ∧ Scan note "e                it's \"\\\" ".toList ∧
    mask (mask note) = mask note := by
  have hline : '\n' ∉ note := by decide +kernel
  have hmask : "e                it's \"\\\" ".toList = mask note := by decide +kernel
  obtain ⟨hscan, -, -, -, hagain⟩ := mask_scan hline
  exact ⟨hline, (hscan _).2 hmask, hagain⟩

end Plotline.Script
