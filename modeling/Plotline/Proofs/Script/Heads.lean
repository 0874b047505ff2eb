import Plotline.Proofs.Script.Balance
import Plotline.Proofs.Script.Columns
import Plotline.Script.Character

/-!
# Heads of definitions of characters

* `IsHead`: what stands in front of the arguments of a definition of a character.
* `characterHead?_eq_some_iff`: the recogniser of heads accepts exactly these texts.
* `exists_finds`: a head begins a line, and whether it is found does not depend on what follows it.
* `HasDefinition.exists_profile`: the character of a definition, whatever its arguments are replaced by.
-/

namespace Plotline.Script
open Text

/-! ## The form of a head -/

/-- Spaces and tabs. -/
def IsSpacing (s : List Char) : Prop := ∀ c ∈ s, c = ' ' ∨ c = '\t'

def IsBlanks (s : List Char) : Prop := ∀ c ∈ s, isBlank c = true

/-- What stands in front of the arguments of a definition: `define TAG = Character(`, where blanks may stand between
the parts, but no line feed in front of the tag. -/
inductive IsHead : (tag : List Char) → List Char → Prop
  | mk {margin gap tag w₁ w₂ w₃ : List Char} : IsSpacing margin → gap ≠ [] → IsSpacing gap → tag ≠ [] →
      (∀ c ∈ tag, isNameChar c = true) → IsBlanks w₁ → IsBlanks w₂ → IsBlanks w₃ →
      IsHead tag (margin ++ "define".toList ++ gap ++ tag ++ (w₁ ++ '=' :: w₂ ++ "Character".toList ++ w₃ ++ ['(']))

theorem exists_spacing_append (s : List Char) : ∃ w, IsSpacing w ∧ s = w ++ skipSpaces s := by
  refine ⟨s.takeWhile fun c => c = ' ' || c = '\t', fun c hc => ?_, ?_⟩
  · simpa using List.all_eq_true.1 List.all_takeWhile c hc
  · unfold skipSpaces
    rw [List.takeWhile_append_dropWhile]

theorem exists_blanks_append (s : List Char) : ∃ w, IsBlanks w ∧ s = w ++ skipBlanks s := by
  refine ⟨s.takeWhile isBlank, fun c hc => List.all_eq_true.1 List.all_takeWhile c hc, ?_⟩
  unfold skipBlanks
  rw [List.takeWhile_append_dropWhile]

theorem skipSpaces_append {w : List Char} (hw : IsSpacing w) {c : Char} (hc : c ≠ ' ' ∧ c ≠ '\t') (r : List Char) :
    skipSpaces (w ++ c :: r) = c :: r := by
  unfold skipSpaces
  rw [List.dropWhile_append_of_pos (by simpa [IsSpacing] using hw), List.dropWhile_cons_of_neg (by simpa using hc)]

theorem skipBlanks_blanks_append {w : List Char} (hw : IsBlanks w) {c : Char} (hc : isBlank c = false) (r : List Char) :
    skipBlanks (w ++ c :: r) = c :: r := by
  unfold skipBlanks
  rw [List.dropWhile_append_of_pos hw, List.dropWhile_cons_of_neg (by simp [hc])]

theorem name?_append {n : List Char} (hne : n ≠ []) (hn : ∀ c ∈ n, isNameChar c = true) {c : Char}
    (hc : isNameChar c = false) (r : List Char) : name? (n ++ c :: r) = some (n, c :: r) := by
  unfold name? run?
  rw [List.takeWhile_append_of_pos hn, List.dropWhile_append_of_pos hn, List.takeWhile_cons_of_neg (by simp [hc]),
    List.dropWhile_cons_of_neg (by simp [hc]), List.append_nil]
  cases n with
  | nil => exact absurd rfl hne
  | cons d n => rfl

theorem afterMark?_eq_some {c : Char} {s r : List Char} (h : afterMark? c s = some r) :
    ∃ w, IsBlanks w ∧ s = w ++ c :: r := by
  obtain ⟨w, hw, hs⟩ := exists_blanks_append s
  rw [after?_eq_some_iff.1 h] at hs
  exact ⟨w, hw, hs⟩

theorem afterMark?_append {w : List Char} (hw : IsBlanks w) {c : Char} (hc : isBlank c = false) (r : List Char) :
    afterMark? c (w ++ c :: r) = some r := by
  unfold afterMark?
  rw [skipBlanks_blanks_append hw hc]
  exact after?_eq_some_iff.2 rfl

theorem exists_head_of_characterHead? {s tag rest : List Char} (h : characterHead? s = some (tag, rest)) :
    ∃ head, IsHead tag head ∧ s = head ++ rest := by
  simp only [characterHead?, Option.bind_eq_bind, Option.bind_eq_some_iff] at h
  obtain ⟨r, hdefine, h⟩ := h
  split at h
  · cases h
  · rename_i hgap
    simp only [Option.bind_eq_some_iff] at h
    obtain ⟨⟨n, s₁⟩, hname, s₂, hequals, s₃, hword, s₄, hparen, h⟩ := h
    obtain ⟨rfl, rfl⟩ := Prod.mk.inj (Option.some.inj h)
    obtain ⟨margin, hmargin, hs⟩ := exists_spacing_append s
    obtain ⟨gap, hspacing, hr⟩ := exists_spacing_append r
    obtain ⟨hne, hchars, ht⟩ := exists_run_of_run? hname
    obtain ⟨w₁, hw₁, rfl⟩ := afterMark?_eq_some hequals
    obtain ⟨w₂, hw₂, hs₂⟩ := exists_blanks_append s₂
    obtain ⟨w₃, hw₃, rfl⟩ := afterMark?_eq_some hparen
    have hgap' : gap ≠ [] := by
      rintro rfl
      exact hgap (congrArg List.length hr).symm
    refine ⟨_, .mk hmargin hgap' hspacing hne hchars hw₁ hw₂ hw₃, ?_⟩
    rw [hs, after?_eq_some_iff.1 hdefine, hr, ht, hs₂, after?_eq_some_iff.1 hword]
    simp

theorem isNameChar_ne_spacing {c : Char} (h : isNameChar c = true) : c ≠ ' ' ∧ c ≠ '\t' := by
  constructor <;> rintro rfl <;> cases h

theorem name?_append_equals {n w : List Char} (hne : n ≠ []) (hn : ∀ c ∈ n, isNameChar c = true) (hw : IsBlanks w)
    (r : List Char) : name? (n ++ (w ++ '=' :: r)) = some (n, w ++ '=' :: r) := by
  cases w with
  | nil => exact name?_append hne hn (by decide) r
  | cons b w => exact name?_append hne hn (isNameChar_of_isBlank (hw b List.mem_cons_self)) _

theorem characterHead?_append {tag head : List Char} (h : IsHead tag head) (rest : List Char) :
    characterHead? (head ++ rest) = some (tag, rest) := by
  obtain @⟨margin, gap, tag, w₁, w₂, w₃, hmargin, hgap, hspacing, hne, hchars, hw₁, hw₂, hw₃⟩ := h
  have hdefine : ∀ r, after? ['d', 'e', 'f', 'i', 'n', 'e'] (skipSpaces (margin ++ ("define".toList ++ r))) = some r :=
    fun r => (congrArg _ (skipSpaces_append hmargin (by decide) _)).trans (after?_eq_some_iff.2 rfl)
  have htag : ∀ r, skipSpaces (gap ++ (tag ++ r)) = tag ++ r := by
    intro r
    obtain ⟨t, ts, rfl⟩ := List.exists_cons_of_ne_nil hne
    exact skipSpaces_append hspacing (isNameChar_ne_spacing (hchars t List.mem_cons_self)) (ts ++ r)
  have hlength : ∀ r : List Char, (tag ++ r).length ≠ (gap ++ (tag ++ r)).length := by
    intro r heq
    simp only [List.length_append] at heq
    exact hgap (List.length_eq_zero_iff.1 (by omega))
  have hword : ∀ r, after? ['C', 'h', 'a', 'r', 'a', 'c', 't', 'e', 'r']
      (skipBlanks (w₂ ++ ("Character".toList ++ r))) =
      some r :=
    fun r => (congrArg _ (skipBlanks_blanks_append hw₂ (by decide) _)).trans (after?_eq_some_iff.2 rfl)
  unfold characterHead?
  simp only [List.append_assoc, List.cons_append, List.nil_append, Option.bind_eq_bind, hdefine, Option.bind_some, htag,
    if_neg (hlength _), name?_append_equals hne hchars hw₁, afterMark?_append hw₁ (show isBlank '=' = false by decide),
    hword, afterMark?_append hw₃ (show isBlank '(' = false by decide)]

/-- The recogniser of heads accepts the heads and nothing else. -/
theorem characterHead?_eq_some_iff {s tag rest : List Char} :
    characterHead? s = some (tag, rest) ↔ ∃ head, IsHead tag head ∧ s = head ++ rest := by
  refine ⟨exists_head_of_characterHead?, ?_⟩
  rintro ⟨head, h, rfl⟩
  exact characterHead?_append h rest

theorem IsHead.ne_nil {tag head : List Char} (h : IsHead tag head) : head ≠ [] := by
  cases h
  simp

/-! ## Heads of a text -/

/-- A head has no `d` behind its first line feed, and its first line has one behind spaces. -/
theorem IsHead.parts {tag head : List Char} (h : IsHead tag head) :
    ∃ margin first behind, head = margin ++ 'd' :: (first ++ behind) ∧ IsSpacing margin ∧
      '\n' ∉ margin ++ 'd' :: first ∧ 'd' ∉ behind := by
  obtain @⟨margin, gap, tag, w₁, w₂, w₃, hmargin, hgap, hspacing, hne, hchars, hw₁, hw₂, hw₃⟩ := h
  have hfeed : ∀ {w}, IsSpacing w → '\n' ∉ w := by
    intro w hw hmem
    rcases hw _ hmem with h | h <;> cases h
  have hd : ∀ {w}, IsBlanks w → 'd' ∉ w := fun hw hmem => absurd (hw _ hmem) (by decide)
  refine ⟨margin, "efine".toList ++ gap ++ tag, w₁ ++ '=' :: w₂ ++ "Character".toList ++ w₃ ++ ['('],
    ?_, hmargin, ?_, ?_⟩
  · simp
  · have htag : '\n' ∉ tag := fun hmem => absurd (hchars _ hmem) (by decide)
    simp [hfeed hmargin, hfeed hspacing, htag]
  · simp [hd hw₁, hd hw₂, hd hw₃]

theorem IsHead.notMem_of_feed {tag a b : List Char} (h : IsHead tag (a ++ '\n' :: b)) : 'd' ∉ b := by
  obtain ⟨margin, first, behind, heq, -, hfeed, hd⟩ := h.parts
  rw [show margin ++ 'd' :: (first ++ behind) = margin ++ 'd' :: first ++ behind by simp] at heq
  rcases List.append_eq_append_iff.1 heq with ⟨m, hleft, hright⟩ | ⟨m, -, rfl⟩
  · cases m with
    | nil =>
        rw [← show '\n' :: b = behind from hright] at hd
        exact fun hb => hd (List.mem_cons_of_mem _ hb)
    | cons c m =>
        obtain rfl := (List.cons.inj hright).1
        rw [hleft] at hfeed
        exact absurd (List.mem_append_right a List.mem_cons_self) hfeed
  · exact fun hb => hd (List.mem_append_right m (List.mem_cons_of_mem _ hb))

/-- A head in front of a line with another head ends before the first word of that line. -/
theorem characterHead?_before {tag head z rest : List Char} (h : IsHead tag head)
    (hnone : characterHead? (z ++ '\n' :: (head ++ rest)) = none) (rest' : List Char) :
    characterHead? (z ++ '\n' :: (head ++ rest')) = none := by
  by_contra hsome
  obtain ⟨⟨tag', r⟩, hhead⟩ := Option.ne_none_iff_exists'.1 hsome
  obtain ⟨earlier, hearlier, heq⟩ := characterHead?_eq_some_iff.1 hhead
  obtain ⟨margin, first, behind, rfl, -, -, -⟩ := h.parts
  -- The earlier head has no `d` in a second line, so it ends before the `define` of the other one.
  suffices hprefix : ∃ m, z ++ '\n' :: margin = earlier ++ m by
    obtain ⟨m, hm⟩ := hprefix
    rw [show z ++ '\n' :: (margin ++ 'd' :: (first ++ behind) ++ rest) =
      (z ++ '\n' :: margin) ++ 'd' :: (first ++ behind) ++ rest by simp, hm, List.append_assoc, List.append_assoc,
      characterHead?_append hearlier] at hnone
    cases hnone
  rw [show z ++ '\n' :: (margin ++ 'd' :: (first ++ behind) ++ rest') =
    (z ++ '\n' :: margin) ++ 'd' :: (first ++ behind ++ rest') by simp] at heq
  rcases List.append_eq_append_iff.1 heq with ⟨m, hleft, hright⟩ | ⟨m, hm, -⟩
  · cases m with
    | nil => exact ⟨[], by simp [hleft]⟩
    | cons c m =>
        obtain rfl := (List.cons.inj hright).1
        rw [hleft, List.append_assoc, List.cons_append] at hearlier
        exact absurd (List.mem_append_right margin List.mem_cons_self) hearlier.notMem_of_feed
  · exact ⟨m, hm⟩

theorem headsFrom_head {offset : Nat} {c : Char} {r tag rest : List Char}
    (h : characterHead? (c :: r) = some (tag, rest)) : headsFrom 0 true offset (c :: r) =
      (offset, tag, rest) :: headsFrom (r.length - rest.length) false (offset + 1) r := by
  rw [headsFrom, if_pos rfl, h]

theorem headsFrom_other {fresh : Bool} {c : Char} {r : List Char}
    (h : fresh = true → characterHead? (c :: r) = none) (offset : Nat) :
    headsFrom 0 fresh offset (c :: r) = headsFrom 0 (c = '\n') (offset + 1) r := by
  cases fresh with
  | false => rfl
  | true => rw [headsFrom, if_pos rfl, h rfl]

/-- What stands in front of a head that begins a line. -/
def StartsLine (fresh : Bool) (z : List Char) : Prop := z = [] ∧ fresh = true ∨ ∃ above, z = above ++ ['\n']

theorem StartsLine.cons {c : Char} {z : List Char} (h : StartsLine (c = '\n') z) (fresh : Bool) :
    StartsLine fresh (c :: z) := by
  rcases h with ⟨rfl, hc⟩ | ⟨above, rfl⟩
  · exact Or.inr ⟨[], by simpa using hc⟩
  · exact Or.inr ⟨c :: above, rfl⟩

theorem StartsLine.exists_above {c : Char} {z : List Char} {fresh : Bool} (h : StartsLine fresh (c :: z)) :
    ∃ above, c :: z = above ++ ['\n'] := by
  rcases h with ⟨hnil, -⟩ | habove
  · cases hnil
  · exact habove

/-- A reader finds a head behind the text `z`, whatever follows the head. -/
def Finds (inside : Nat) (fresh : Bool) (offset i : Nat) (z head tag : List Char) : Prop :=
  ∀ rest, (headsFrom inside fresh offset (z ++ (head ++ rest)))[i]? = some (offset + z.length, tag, rest)

namespace Finds
variable {fresh : Bool} {offset i n : Nat} {c : Char} {z head tag : List Char}

theorem here (h : IsHead tag head) : Finds 0 true offset 0 [] head tag := by
  intro rest
  obtain ⟨d, ds, rfl⟩ := List.exists_cons_of_ne_nil h.ne_nil
  have hhead := characterHead?_append h rest
  rw [List.cons_append] at hhead
  rw [List.nil_append, List.cons_append, headsFrom_head hhead]
  rfl

theorem inside (h : Finds n (c = '\n') (offset + 1) i z head tag) : Finds (n + 1) fresh offset i (c :: z) head tag := by
  intro rest
  rw [List.cons_append, headsFrom, h rest, List.length_cons]
  congr 2
  omega

theorem other {rest : List Char} (hhead : IsHead tag head) (hline : StartsLine fresh (c :: z))
    (hother : fresh = true → characterHead? (c :: (z ++ (head ++ rest))) = none)
    (h : Finds 0 (c = '\n') (offset + 1) i z head tag) : Finds 0 fresh offset i (c :: z) head tag := by
  intro rest'
  obtain ⟨above, habove⟩ := hline.exists_above
  have hstill : fresh = true → characterHead? (c :: (z ++ (head ++ rest'))) = none := by
    intro hfresh
    have hnone := hother hfresh
    rw [← List.cons_append, habove, List.append_assoc, List.singleton_append] at hnone ⊢
    exact characterHead?_before hhead hnone rest'
  rw [List.cons_append, headsFrom_other hstill, h rest', List.length_cons]
  congr 2
  omega

theorem later {first tag' m : List Char} (hfirst : IsHead tag' first) (hz : c :: z = first ++ m)
    (h : Finds (z.length - m.length) false (offset + 1) i z head tag) :
    Finds 0 true offset (i + 1) (c :: z) head tag := by
  intro rest
  have hhead : characterHead? (c :: (z ++ (head ++ rest))) = some (tag', m ++ (head ++ rest)) := by
    rw [← List.cons_append, hz, List.append_assoc]
    exact characterHead?_append hfirst _
  have hinside : (z ++ (head ++ rest)).length - (m ++ (head ++ rest)).length = z.length - m.length := by
    simp only [List.length_append]
    omega
  rw [List.cons_append, headsFrom_head hhead, hinside, List.getElem?_cons_succ, h rest, List.length_cons]
  congr 2
  omega

end Finds

/-- A head begins a line, and whether it is found does not depend on what follows it. -/
theorem exists_finds {tag rest : List Char} {position : Nat} : ∀ {s : List Char} {n offset i : Nat} {fresh : Bool},
    (headsFrom n fresh offset s)[i]? = some (position, tag, rest) →
      ∃ z head, s = z ++ (head ++ rest) ∧ IsHead tag head ∧ n ≤ z.length ∧ StartsLine fresh z ∧
        Finds n fresh offset i z head tag := by
  intro s
  induction s with
  | nil =>
      intro n offset i fresh h
      simp [headsFrom] at h
  | cons c r ih =>
      intro n offset i fresh h
      cases n with
      | succ n =>
          obtain ⟨z, head, rfl, hhead, hn, hline, hfinds⟩ := ih h
          exact ⟨c :: z, head, rfl, hhead, Nat.succ_le_succ hn, hline.cons fresh, hfinds.inside⟩
      | zero =>
          by_cases hother : fresh = true → characterHead? (c :: r) = none
          · rw [headsFrom_other hother] at h
            obtain ⟨z, head, rfl, hhead, -, hline, hfinds⟩ := ih h
            exact ⟨c :: z, head, rfl, hhead, Nat.zero_le _, hline.cons fresh,
              hfinds.other hhead (hline.cons fresh) hother⟩
          · obtain ⟨rfl, hsome⟩ := Classical.not_imp.1 hother
            obtain ⟨⟨tag', r'⟩, hfirst⟩ := Option.ne_none_iff_exists'.1 hsome
            obtain ⟨first, hform, hsplit⟩ := characterHead?_eq_some_iff.1 hfirst
            rw [headsFrom_head hfirst] at h
            cases i with
            | zero =>
                obtain ⟨-, rfl, rfl⟩ : offset = position ∧ tag' = tag ∧ r' = rest := by simpa using h
                exact ⟨[], first, hsplit, hform, Nat.zero_le _, Or.inl ⟨rfl, rfl⟩, .here hform⟩
            | succ i =>
                rw [List.getElem?_cons_succ] at h
                obtain ⟨z, head, rfl, hhead, hn, hline, hfinds⟩ := ih h
                -- The reader skips the first head, so the one that it finds next lies behind it.
                have hbound : first.length ≤ (c :: z).length := by
                  have hlength := congrArg List.length hsplit
                  simp only [List.length_cons, List.length_append] at hlength hn ⊢
                  omega
                obtain ⟨m, hm⟩ : first <+: c :: z :=
                  List.prefix_of_prefix_length_le ⟨r', hsplit.symm⟩ ⟨head ++ rest, rfl⟩ hbound
                have hinside : (z ++ (head ++ rest)).length - r'.length = z.length - m.length := by
                  have hlength := congrArg List.length hsplit
                  have hlength' := congrArg List.length hm
                  simp only [List.length_cons, List.length_append] at hlength hlength' ⊢
                  omega
                rw [hinside] at hfinds
                have habove : ∃ above, z = above ++ ['\n'] := hline.resolve_left fun h => Bool.noConfusion h.2
                exact ⟨c :: z, head, rfl, hhead, Nat.zero_le _, StartsLine.cons (Or.inr habove) true,
                  hfinds.later hform hm.symm⟩

/-! ## Definitions -/

/-- The definition of index `i` in a text, with what stands in front of its arguments, its tag, and the rest of the
text. -/
def HasDefinition (i : Nat) (before tag rest : List Char) : Prop :=
  ∃ offset, (headsFrom 0 true 0 (before ++ rest))[i]? = some (offset, tag, rest)

/-- Whatever the text behind the head of a definition is replaced by, it defines a character with the same tag and the
same profile. -/
theorem HasDefinition.exists_profile {i : Nat} {before tag rest : List Char} (h : HasDefinition i before tag rest) :
    ∃ profile, ∀ rest' block, (charactersIn (before ++ rest') block)[i]? =
      some (Character.ofCall (String.ofList tag) (callArguments rest' 0).1 block profile) := by
  obtain ⟨offset, hfound⟩ := h
  obtain ⟨z, head, hsplit, -, -, -, hfinds⟩ := exists_finds hfound
  obtain rfl : before = z ++ head := by
    rw [← List.append_assoc] at hsplit
    exact List.append_cancel_right hsplit
  refine ⟨profileBefore? z z.length, fun rest' block => ?_⟩
  have hprofile : profileBefore? (z ++ (head ++ rest')) (0 + z.length) = profileBefore? z z.length := by
    unfold profileBefore?
    rw [Nat.zero_add, List.take_left, List.take_length]
  unfold charactersIn
  rw [List.append_assoc, List.getElem?_map, hfinds rest', Option.map_some]
  simp only [hprofile]

end Plotline.Script
