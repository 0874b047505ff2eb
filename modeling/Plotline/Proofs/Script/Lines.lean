import Plotline.Proofs.Script.Arguments

/-!
# Lines that define a name

* `DefinesVariable`, `OpensLabel`: the form of a line that gives a variable its first value, and of one that opens a
  label.
* `skipBlanks_eq_iff`, `afterBlanks?_eq_some_iff`, `run?_eq_some_iff`, `afterMark?_eq_some_iff`: what the steps of a
  recogniser take off the head of a text.
* `exists_definition?_iff`, `exists_labelHeader?_iff`: the recognisers accept the lines of these forms and no others.
* `Block.mem_filterMap_iff`: what a block has that is read off its lines one by one.
* `recorded_on_line`: a block records a variable or a label on exactly these lines, and one at most.
-/

namespace Plotline
namespace Script
open Text

/-! ## Forms of lines -/

/-- The text begins with a call of `Character`, blanks aside. -/
def CallsCharacter (s : List Char) : Prop :=
  ∃ w w' r, IsBlanks w ∧ IsBlanks w' ∧ s = w ++ "Character".toList ++ w' ++ '(' :: r

instance : DecidablePred IsBlanks := fun _ => decidable_of_iff _ List.all_eq_true

instance : DecidablePred IsGap := fun s => inferInstanceAs (Decidable (s ≠ [] ∧ IsBlanks s))

/-- A line that gives a variable its first value: `define NAME = REST` or `default NAME = REST`, where the rest is not
empty and calls no `Character`. -/
inductive DefinesVariable (kind : VariableKind) (name rest : List Char) : List Char → Prop
  | mk {margin gap w : List Char} : IsBlanks margin → IsGap gap → name ≠ [] → (∀ c ∈ name, isDottedChar c = true) →
      IsBlanks w → rest ≠ [] → ¬CallsCharacter rest →
      DefinesVariable kind name rest (margin ++ kind.keyword.toList ++ gap ++ name ++ w ++ '=' :: rest)

def IsParameters (s : List Char) : Prop := ∃ inner w, IsBlanks w ∧ s = '(' :: inner ++ ')' :: w

/-- A line that opens a label: `label NAME:`, also with a parameter list and with anything behind the colon. -/
inductive OpensLabel (name : List Char) : List Char → Prop
  | mk {margin gap w parameters rest : List Char} : IsBlanks margin → IsGap gap → name ≠ [] →
      (∀ c ∈ name, isNameChar c = true) → IsBlanks w → parameters = [] ∨ IsParameters parameters →
      OpensLabel name (margin ++ "label".toList ++ gap ++ name ++ w ++ parameters ++ ':' :: rest)

/-! ## Steps of recognisers -/

theorem skipBlanks_eq_iff {s r : List Char} :
    skipBlanks s = r ↔ ∃ w, IsBlanks w ∧ s = w ++ r ∧ ∀ c ∈ r.head?, isBlank c = false := by
  constructor
  · rintro rfl
    obtain ⟨w, hw, hs⟩ := exists_blanks_append s
    exact ⟨w, hw, hs, isBlank_of_head?_skipBlanks⟩
  · rintro ⟨w, hw, rfl, hhead⟩
    cases r with
    | nil =>
        rw [List.append_nil]
        exact skipBlanks_eq_nil hw
    | cons c r => exact skipBlanks_blanks_append hw (hhead c rfl) r

theorem afterBlanks?_eq_some_iff {s r : List Char} :
    afterBlanks? s = some r ↔ ∃ gap, IsGap gap ∧ s = gap ++ r ∧ ∀ c ∈ r.head?, isBlank c = false := by
  cases s with
  | nil =>
      refine iff_of_false (by simp [afterBlanks?]) ?_
      rintro ⟨gap, ⟨hne, -⟩, hnil, -⟩
      exact hne (List.append_eq_nil_iff.1 hnil.symm).1
  | cons c s =>
      rw [afterBlanks?_cons]
      constructor
      · intro h
        split at h
        · rename_i hc
          obtain ⟨w, hw, rfl, hhead⟩ := skipBlanks_eq_iff.1 (Option.some.inj h)
          refine ⟨c :: w, ⟨List.cons_ne_nil c w, fun d hd => ?_⟩, rfl, hhead⟩
          rcases List.mem_cons.1 hd with rfl | hd
          · exact hc
          · exact hw d hd
        · cases h
      · rintro ⟨gap, ⟨hne, hblank⟩, heq, hhead⟩
        cases gap with
        | nil => exact absurd rfl hne
        | cons d gap =>
            obtain ⟨rfl, rfl⟩ := List.cons.inj heq
            rw [if_pos (hblank c List.mem_cons_self), Option.some.injEq]
            exact skipBlanks_eq_iff.2 ⟨gap, fun e he => hblank e (List.mem_cons_of_mem c he), rfl, hhead⟩

theorem run?_eq_some_iff {p : Char → Bool} {s n r : List Char} :
    run? p s = some (n, r) ↔ n ≠ [] ∧ (∀ c ∈ n, p c = true) ∧ s = n ++ r ∧ ∀ c ∈ r.head?, p c = false := by
  constructor
  · intro h
    obtain ⟨hne, hchars, hs⟩ := exists_run_of_run? h
    refine ⟨hne, hchars, hs, fun c hc => ?_⟩
    obtain ⟨-, rfl, -⟩ := run?_eq_some h
    have hhead := List.head?_dropWhile_not p s
    rw [show (s.dropWhile p).head? = some c from hc] at hhead
    simpa using hhead
  · rintro ⟨hne, hchars, rfl, hhead⟩
    have hstop : r.takeWhile p = [] ∧ r.dropWhile p = r := by
      cases r with
      | nil => exact ⟨rfl, rfl⟩
      | cons c r =>
          have hc : ¬p c = true := by simp [hhead c rfl]
          exact ⟨List.takeWhile_cons_of_neg hc, List.dropWhile_cons_of_neg hc⟩
    unfold run?
    rw [List.takeWhile_append_of_pos hchars, List.dropWhile_append_of_pos hchars, hstop.1, hstop.2, List.append_nil]
    cases n with
    | nil => exact absurd rfl hne
    | cons c n => rfl

theorem afterMark?_eq_some_iff {c : Char} (hc : isBlank c = false) {s r : List Char} :
    afterMark? c s = some r ↔ ∃ w, IsBlanks w ∧ s = w ++ c :: r := by
  refine ⟨afterMark?_eq_some, ?_⟩
  rintro ⟨w, hw, rfl⟩
  exact afterMark?_append hw hc r

/-- Where blanks and then a given character follow, neither a name nor a dotted name goes on. -/
theorem head?_blanks_append {p : Char → Bool} (hp : ∀ c, isBlank c = true → p c = false) {w : List Char}
    (hw : IsBlanks w) {c : Char} (hc : p c = false) (r : List Char) : ∀ d ∈ (w ++ c :: r).head?, p d = false := by
  intro d hd
  cases w with
  | nil =>
      obtain rfl := Option.some.inj hd
      exact hc
  | cons b w =>
      obtain rfl := Option.some.inj hd
      exact hp b (hw b List.mem_cons_self)

theorem head?_append_of_all {p q : Char → Bool} (hpq : ∀ c, p c = true → q c = false) {n : List Char} (hne : n ≠ [])
    (hn : ∀ c ∈ n, p c = true) (r : List Char) : ∀ c ∈ (n ++ r).head?, q c = false := by
  intro c hc
  cases n with
  | nil => exact absurd rfl hne
  | cons d n =>
      obtain rfl := Option.some.inj hc
      exact hpq d (hn d List.mem_cons_self)

theorem isBlank_of_isDottedChar {c : Char} (h : isDottedChar c = true) : isBlank c = false := by
  rw [Bool.eq_false_iff]
  intro hblank
  rw [isDottedChar_of_isBlank hblank] at h
  cases h

/-! ## Definitions -/

theorem definitionKeyword?_eq_some_iff {k : VariableKind} {s r : List Char} :
    definitionKeyword? s = some (k, r) ↔ s = k.keyword.toList ++ r := by
  unfold definitionKeyword?
  cases hdefine : after? ['d', 'e', 'f', 'i', 'n', 'e'] s with
  | some r' =>
      obtain rfl := after?_eq_some_iff.1 hdefine
      cases k <;> simp [VariableKind.keyword, eq_comm]
  | none =>
      have hnone : ∀ r', s ≠ ['d', 'e', 'f', 'i', 'n', 'e'] ++ r' := by
        intro r' h
        rw [after?_eq_some_iff.2 h] at hdefine
        cases hdefine
      cases k with
      | define =>
          refine ⟨fun h => ?_, fun h => absurd h (hnone r)⟩
          obtain ⟨r', -, heq⟩ := Option.map_eq_some_iff.1 h
          cases heq
      | default =>
          simp only [Option.map_eq_some_iff, Prod.mk.injEq, true_and, exists_eq_right]
          exact after?_eq_some_iff

theorem isCharacterCall_iff {s : List Char} :
    isCharacterCall s = true ↔ ∃ w r, IsBlanks w ∧ s = "Character".toList ++ w ++ '(' :: r := by
  unfold isCharacterCall
  split
  · rename_i t hword
    rw [after?_eq_some_iff.1 hword, Option.isSome_iff_exists]
    refine ⟨fun ⟨r, h⟩ => ?_, fun ⟨w, r, hw, heq⟩ => ⟨r, ?_⟩⟩
    · obtain ⟨w, hw, rfl⟩ := afterMark?_eq_some h
      exact ⟨w, r, hw, (List.append_assoc _ _ _).symm⟩
    · rw [List.append_assoc] at heq
      rw [List.append_cancel_left heq]
      exact afterMark?_append hw (by decide) r
  · rename_i hword
    refine iff_of_false Bool.false_ne_true ?_
    rintro ⟨w, r, -, rfl⟩
    have hsome : after? "Character".toList ("Character".toList ++ w ++ '(' :: r) = some (w ++ '(' :: r) :=
      after?_eq_some_iff.2 (List.append_assoc _ _ _)
    cases hword.symm.trans hsome

theorem isCharacterCall_skipBlanks_iff {s : List Char} : isCharacterCall (skipBlanks s) = true ↔ CallsCharacter s := by
  rw [isCharacterCall_iff]
  constructor
  · rintro ⟨w', r, hw', hskip⟩
    obtain ⟨w, hw, hs⟩ := exists_blanks_append s
    exact ⟨w, w', r, hw, hw', by rw [hs, hskip]; simp⟩
  · rintro ⟨w, w', r, hw, hw', rfl⟩
    refine ⟨w', r, hw', ?_⟩
    simp only [List.append_assoc]
    exact skipBlanks_blanks_append hw (by decide) _

instance : DecidablePred CallsCharacter := fun _ => decidable_of_iff _ isCharacterCall_skipBlanks_iff

theorem exists_lastBlank? : ∀ {s : List Char}, s ≠ [] → '\n' ∉ s → IsBlanks s →
    ∃ c, lastBlank? s = some ([c], []) ∧ isBlank c = true
  | [], hne, _, _ => absurd rfl hne
  | [c], _, hline, hblank => by
    have hc : c ≠ '\n' := by
      rintro rfl
      simp at hline
    exact ⟨c, by simp [lastBlank?, hc], hblank c List.mem_cons_self⟩
  | c :: d :: s, _, hline, hblank => by
    obtain ⟨e, hlast, he⟩ := exists_lastBlank? (List.cons_ne_nil d s) (fun h => hline (List.mem_cons_of_mem c h))
      fun f hf => hblank f (List.mem_cons_of_mem c hf)
    exact ⟨e, by rw [lastBlank?, hlast], he⟩

theorem trim_skipBlanks (s : List Char) : trim (skipBlanks s) = trim s := by
  unfold trim
  rw [skipBlanks_eq_self isBlank_of_head?_skipBlanks]

theorem trim_eq_nil {s : List Char} (hs : IsBlanks s) : trim s = [] := by
  unfold trim
  rw [skipBlanks_eq_nil hs]
  rfl

theorem value?_eq_none {s : List Char} (h : s = [] ∨ CallsCharacter s) : value? s = none := by
  rcases h with rfl | h
  · rfl
  · unfold value?
    rw [if_pos (isCharacterCall_skipBlanks_iff.2 h)]

/-- On one line, the trimmed value is the trimmed rest of the line, whichever blank an empty value is read as. -/
theorem exists_value? {s : List Char} (hline : '\n' ∉ s) (hne : s ≠ []) (hcall : ¬CallsCharacter s) :
    ∃ e, value? s = some e ∧ trim e.1 = trim s := by
  rw [← isCharacterCall_skipBlanks_iff] at hcall
  unfold value?
  rw [if_neg hcall]
  split
  · -- Nothing but blanks is left: the value is the last of them, and it trims to nothing as the rest does.
    rename_i hempty
    obtain ⟨w, hw, hs, -⟩ := skipBlanks_eq_iff.1 (List.isEmpty_iff.1 hempty)
    rw [List.append_nil] at hs
    subst hs
    obtain ⟨c, hlast, hc⟩ := exists_lastBlank? hne hline hw
    refine ⟨([c], []), hlast, ?_⟩
    rw [trim_eq_nil hw]
    exact trim_eq_nil fun d hd => List.mem_singleton.1 hd ▸ hc
  · have hfeed : ∀ c ∈ skipBlanks s, decide (c ≠ '\n') = true := by
      intro c hc
      have hmem : c ∈ s := (List.dropWhile_sublist isBlank).subset hc
      rw [decide_eq_true_iff]
      rintro rfl
      exact hline hmem
    refine ⟨_, rfl, ?_⟩
    show trim ((skipBlanks s).takeWhile _) = trim s
    rw [List.takeWhile_eq_self_iff.2 hfeed, trim_skipBlanks]

/-- The recogniser of definitions accepts the lines that define a variable, and gives the name and the value away. -/
theorem exists_definition?_iff {line : List Char} (hline : '\n' ∉ line) {kind : VariableKind} {name : String}
    {value : List Char} :
    (∃ d, definition? line = some d ∧ d.kind = kind ∧ d.name = name ∧ trim d.value = value) ↔
      ∃ rest, DefinesVariable kind name.toList rest line ∧ value = trim rest := by
  constructor
  · rintro ⟨d, hd, rfl, rfl, rfl⟩
    simp only [definition?, Option.bind_eq_bind, Option.bind_eq_some_iff] at hd
    obtain ⟨⟨k, r₁⟩, hkey, r₂, hblanks, ⟨n, r₃⟩, hname, r₄, hequals, ⟨v, r₅⟩, hvalue, hd⟩ := hd
    obtain rfl := Option.some.inj hd
    obtain ⟨margin, hmargin, hs⟩ := exists_blanks_append line
    obtain ⟨gap, hgap, rfl⟩ := exists_gap_of_afterBlanks? hblanks
    obtain ⟨hne, hchars, rfl⟩ := exists_run_of_run? hname
    obtain ⟨w, hw, rfl⟩ := afterMark?_eq_some hequals
    rw [definitionKeyword?_eq_some_iff.1 hkey] at hs
    have hrest : ¬(r₄ = [] ∨ CallsCharacter r₄) := by
      intro h
      rw [value?_eq_none h] at hvalue
      cases hvalue
    rw [not_or] at hrest
    have hfeed : '\n' ∉ r₄ := fun hmem => hline (hs ▸ by simp [hmem])
    obtain ⟨e, he, htrim⟩ := exists_value? hfeed hrest.1 hrest.2
    obtain rfl := Option.some.inj (he.symm.trans hvalue)
    refine ⟨r₄, ?_, htrim⟩
    have hform : DefinesVariable k n r₄ _ := .mk hmargin hgap hne hchars hw hrest.1 hrest.2
    rw [String.toList_ofList, hs]
    simpa only [List.append_assoc] using hform
  · rintro ⟨rest, hform, rfl⟩
    obtain ⟨n, rfl⟩ : ∃ n, name = String.ofList n := ⟨name.toList, String.ofList_toList.symm⟩
    rw [String.toList_ofList] at hform
    obtain @⟨margin, gap, w, hmargin, hgap, hne, hchars, hw, hrest, hcall⟩ := hform
    obtain ⟨e, hvalue, htrim⟩ := exists_value? (fun hmem => hline (by simp [hmem])) hrest hcall
    have hskip : skipBlanks (margin ++ kind.keyword.toList ++ gap ++ n ++ w ++ '=' :: rest) =
        kind.keyword.toList ++ (gap ++ (n ++ (w ++ '=' :: rest))) := by
      refine skipBlanks_eq_iff.2 ⟨margin, hmargin, by simp only [List.append_assoc], ?_⟩
      intro c hc
      cases kind <;> obtain rfl := Option.some.inj hc <;> decide
    have hkey := definitionKeyword?_eq_some_iff.2 (Eq.refl (kind.keyword.toList ++ (gap ++ (n ++ (w ++ '=' :: rest)))))
    have hgap' : afterBlanks? (gap ++ (n ++ (w ++ '=' :: rest))) = some (n ++ (w ++ '=' :: rest)) :=
      afterBlanks?_eq_some_iff.2 ⟨gap, hgap, rfl, head?_append_of_all (fun _ => isBlank_of_isDottedChar) hne hchars _⟩
    have hname : run? isDottedChar (n ++ (w ++ '=' :: rest)) = some (n, w ++ '=' :: rest) :=
      run?_eq_some_iff.2 ⟨hne, hchars, rfl, head?_blanks_append (fun _ => isDottedChar_of_isBlank) hw (by decide) rest⟩
    refine ⟨⟨kind, String.ofList n, e.1, e.2⟩, ?_, rfl, rfl, htrim⟩
    unfold definition?
    simp only [hskip, hkey, hgap', hname, afterMark?_append hw (show isBlank '=' = false by decide) rest, hvalue,
      Option.bind_eq_bind, Option.bind_some]

/-! ## Labels -/

/-- A parameter list may end at any parenthesis that blanks and a colon follow. -/
theorem isSome_closeBeforeColon?_iff : ∀ {s : List Char}, '\n' ∉ s → ((closeBeforeColon? s).isSome = true ↔
    ∃ inner w rest, IsBlanks w ∧ s = inner ++ ')' :: (w ++ ':' :: rest))
  | [], _ => by simp [closeBeforeColon?]
  | c :: s, hline => by
    rw [List.mem_cons, not_or] at hline
    have hmark : (afterMark? ':' s).isSome = true ↔ ∃ w rest, IsBlanks w ∧ s = w ++ ':' :: rest := by
      rw [Option.isSome_iff_exists, exists_comm]
      exact exists_congr fun rest => afterMark?_eq_some_iff (by decide)
    -- The search prefers a later parenthesis, but it finds one wherever there is one.
    have hstep : (closeBeforeColon? (c :: s)).isSome = true ↔
        c = ')' ∧ (afterMark? ':' s).isSome = true ∨ (closeBeforeColon? s).isSome = true := by
      rw [closeBeforeColon?, if_neg (Ne.symm hline.1)]
      cases closeBeforeColon? s with
      | some e => simp
      | none => by_cases hc : c = ')' <;> simp [hc]
    rw [hstep, hmark, isSome_closeBeforeColon?_iff hline.2]
    constructor
    · rintro (⟨rfl, w, rest, hw, rfl⟩ | ⟨inner, w, rest, hw, rfl⟩)
      · exact ⟨[], w, rest, hw, rfl⟩
      · exact ⟨c :: inner, w, rest, hw, rfl⟩
    · rintro ⟨inner, w, rest, hw, heq⟩
      cases inner with
      | nil =>
          obtain ⟨rfl, rfl⟩ := List.cons.inj heq
          exact Or.inl ⟨rfl, w, rest, hw, rfl⟩
      | cons d inner =>
          obtain ⟨rfl, rfl⟩ := List.cons.inj heq
          exact Or.inr ⟨inner, w, rest, hw, rfl⟩

theorem isSome_headerEnd?_iff {s : List Char} (hline : '\n' ∉ s) : (headerEnd? s).isSome = true ↔
    ∃ w parameters rest, IsBlanks w ∧ (parameters = [] ∨ IsParameters parameters) ∧
      s = w ++ (parameters ++ ':' :: rest) := by
  obtain ⟨w, hw, hs⟩ := exists_blanks_append s
  have hfeed : '\n' ∉ skipBlanks s := fun hmem => hline ((List.dropWhile_sublist isBlank).subset hmem)
  unfold headerEnd?
  constructor
  · intro h
    cases hskip : skipBlanks s with
    | nil => rw [hskip] at h; cases h
    | cons c r =>
        simp only [hskip] at h
        rw [hskip] at hs hfeed
        by_cases hparen : c = '('
        · subst hparen
          have hinner : '\n' ∉ r := fun hmem => hfeed (List.mem_cons_of_mem _ hmem)
          rw [if_pos rfl, Option.isSome_map, isSome_closeBeforeColon?_iff hinner] at h
          obtain ⟨inner, w', rest, hw', rfl⟩ := h
          exact ⟨w, '(' :: inner ++ ')' :: w', rest, hw, Or.inr ⟨inner, w', hw', rfl⟩, by simp [hs]⟩
        · rw [if_neg hparen] at h
          split at h
          · rename_i hcolon
            exact ⟨w, [], r, hw, Or.inl rfl, by rw [hs, hcolon]; rfl⟩
          · cases h
  · rintro ⟨w', parameters, rest, hw', rfl | ⟨inner, w'', hw'', rfl⟩, rfl⟩
    · rw [List.nil_append, skipBlanks_blanks_append hw' (by decide)]
      rfl
    · have hsplit : '(' :: inner ++ ')' :: w'' ++ ':' :: rest = '(' :: (inner ++ ')' :: (w'' ++ ':' :: rest)) := by simp
      rw [hsplit] at hline ⊢
      rw [skipBlanks_blanks_append hw' (by decide)]
      show (Option.map _ (closeBeforeColon? _)).isSome = true
      rw [Option.isSome_map, isSome_closeBeforeColon?_iff]
      · exact ⟨inner, w'', rest, hw'', rfl⟩
      · exact fun hmem => hline (List.mem_append_right w' (List.mem_cons_of_mem '(' hmem))

theorem exists_keywordName? {keyword margin gap n r : List Char} (hkeyword : ∀ c ∈ keyword.head?, isBlank c = false)
    (hmargin : IsBlanks margin) (hgap : IsGap gap) (hne : n ≠ []) (hchars : ∀ c ∈ n, isNameChar c = true)
    (hhead : ∀ c ∈ r.head?, isNameChar c = false) (hkey : keyword ≠ []) :
    ∃ column, keywordName? keyword (margin ++ keyword ++ gap ++ n ++ r) = some (column, n, r) := by
  have hskip : skipBlanks (margin ++ keyword ++ gap ++ n ++ r) = keyword ++ (gap ++ (n ++ r)) := by
    refine skipBlanks_eq_iff.2 ⟨margin, hmargin, by simp only [List.append_assoc], ?_⟩
    rw [List.head?_append_of_ne_nil _ hkey]
    exact hkeyword
  have hgap' : afterBlanks? (gap ++ (n ++ r)) = some (n ++ r) := by
    refine afterBlanks?_eq_some_iff.2 ⟨gap, hgap, rfl, head?_append_of_all (fun c hc => ?_) hne hchars r⟩
    exact isBlank_of_isDottedChar (by rw [isDottedChar, hc, Bool.true_or])
  have hname : name? (n ++ r) = some (n, r) := run?_eq_some_iff.2 ⟨hne, hchars, rfl, hhead⟩
  refine ⟨(margin ++ keyword ++ gap ++ n ++ r).length - (n ++ r).length, ?_⟩
  unfold keywordName?
  simp only [hskip, after?_eq_some_iff.2 (rfl : _ = keyword ++ _), hgap', hname, Option.bind_eq_bind, Option.bind_some]

/-- The recogniser of labels accepts the lines that open a label, and gives the name away. -/
theorem exists_labelHeader?_iff {line : List Char} (hline : '\n' ∉ line) {name : String} :
    (∃ h, labelHeader? line = some h ∧ h.name = name) ↔ OpensLabel name.toList line := by
  constructor
  · rintro ⟨h, hh, rfl⟩
    simp only [labelHeader?, keywordName?, Option.bind_eq_bind, Option.bind_eq_some_iff] at hh
    obtain ⟨e, ⟨r₁, hkey, r₂, hblanks, ⟨n, r₃⟩, hname, he⟩, ⟨parameters, rest⟩, hend, hh⟩ := hh
    obtain rfl := Option.some.inj he
    obtain rfl := Option.some.inj hh
    obtain ⟨margin, hmargin, hs⟩ := exists_blanks_append line
    obtain ⟨gap, hgap, rfl⟩ := exists_gap_of_afterBlanks? hblanks
    obtain ⟨hne, hchars, rfl⟩ := exists_run_of_run? hname
    rw [after?_eq_some_iff.1 hkey] at hs
    have hfeed : '\n' ∉ r₃ := fun hmem => hline (hs ▸ by simp [hmem])
    obtain ⟨w, parameters, rest, hw, hparameters, rfl⟩ :=
      (isSome_headerEnd?_iff hfeed).1 (Option.isSome_iff_exists.2 ⟨_, hend⟩)
    have hform := @OpensLabel.mk n margin gap w parameters rest hmargin hgap hne hchars hw hparameters
    simp only [List.append_assoc] at hform
    rw [String.toList_ofList, hs]
    exact hform
  · intro hform
    obtain ⟨n, rfl⟩ : ∃ n, name = String.ofList n := ⟨name.toList, String.ofList_toList.symm⟩
    rw [String.toList_ofList] at hform
    obtain @⟨margin, gap, w, parameters, rest, hmargin, hgap, hne, hchars, hw, hparameters⟩ := hform
    have hhead : ∀ c ∈ (w ++ (parameters ++ ':' :: rest)).head?, isNameChar c = false := by
      rcases hparameters with rfl | ⟨inner, w', -, rfl⟩
      · exact head?_blanks_append (fun _ => isNameChar_of_isBlank) hw (by decide) rest
      · exact head?_blanks_append (fun _ => isNameChar_of_isBlank) hw (by decide) _
    have hlabel : ∀ c ∈ "label".toList.head?, isBlank c = false := by
      intro c hc
      obtain rfl := Option.some.inj hc
      decide
    obtain ⟨column, hkey⟩ := exists_keywordName? hlabel hmargin hgap hne hchars hhead (by decide)
    have hfeed : '\n' ∉ w ++ (parameters ++ ':' :: rest) := by
      intro hmem
      apply hline
      rw [List.append_assoc, List.append_assoc]
      exact List.mem_append_right _ hmem
    obtain ⟨⟨parameters', rest'⟩, hend⟩ := Option.isSome_iff_exists.1
      ((isSome_headerEnd?_iff hfeed).2 ⟨w, parameters, rest, hw, hparameters, rfl⟩)
    refine ⟨⟨String.ofList n, column, rest'⟩, ?_, rfl⟩
    simp only [List.append_assoc] at hkey ⊢
    unfold labelHeader?
    rw [show keywordName? ['l', 'a', 'b', 'e', 'l'] _ = _ from hkey]
    simp only [hend, Option.bind_eq_bind, Option.bind_some]

end Script

/-! ## Blocks -/

open Script Text

theorem feed_notMem_linesAfter : ∀ (s opened : List Char), '\n' ∉ opened → ∀ line ∈ linesAfter opened s, '\n' ∉ line
  | [], opened, hopened => by
    intro line hline
    obtain rfl := List.mem_singleton.1 hline
    rwa [List.mem_reverse]
  | c :: s, opened, hopened => by
    rw [linesAfter]
    split
    · intro line hline
      rcases List.mem_cons.1 hline with rfl | hline
      · rwa [List.mem_reverse]
      · exact feed_notMem_linesAfter s [] List.not_mem_nil line hline
    · rename_i hc
      apply feed_notMem_linesAfter s (c :: opened)
      rw [List.mem_cons, not_or]
      exact ⟨Ne.symm hc, hopened⟩

namespace Block
variable {b : Block} {number : Int} {line : List Char}

theorem exists_mem_of_hasLine (h : b.HasLine number line) : ∃ n : Nat, number = n ∧ (line, n) ∈ b.numberedLines := by
  obtain ⟨n, rfl, hget⟩ := h
  refine ⟨n + 1, by omega, List.mem_zipIdx_iff_le_and_getElem?_sub.2 ⟨by simp, ?_⟩⟩
  rw [lines_eq_splitOn]
  exact hget

theorem hasLine_inj {line' : List Char} (h : b.HasLine number line) (h' : b.HasLine number line') : line = line' := by
  obtain ⟨n, rfl, hget⟩ := h
  obtain ⟨m, hm, hget'⟩ := h'
  obtain rfl : n = m := by omega
  exact Option.some.inj (hget.symm.trans hget')

theorem feed_notMem_of_hasLine (h : b.HasLine number line) : '\n' ∉ line := by
  obtain ⟨n, -, hget⟩ := h
  rw [← lines_eq_splitOn] at hget
  exact feed_notMem_linesAfter _ [] List.not_mem_nil line (List.mem_of_getElem? hget)

/-- What is read off single lines and keeps their numbers: on a line of the block there is what that line gives. -/
theorem mem_filterMap_iff {α : Type} {f : List Char → Nat → Option α} {lineOf : α → Int}
    (hf : ∀ line n a, f line n = some a → lineOf a = n) (h : b.HasLine number line) {a : α} :
    a ∈ b.numberedLines.filterMap (fun l => f l.1 l.2) ∧ lineOf a = number ↔
      ∃ n : Nat, number = n ∧ f line n = some a := by
  rw [List.mem_filterMap]
  constructor
  · rintro ⟨⟨l, hl, ha⟩, hnumber⟩
    have hline := hf l.1 l.2 a ha
    rw [hnumber] at hline
    have hsame := hasLine_inj h (hline ▸ hasLine_of_mem hl)
    exact ⟨l.2, hline, hsame ▸ ha⟩
  · rintro ⟨n, hn, ha⟩
    obtain ⟨m, hm, hmem⟩ := exists_mem_of_hasLine h
    obtain rfl : n = m := by omega
    exact ⟨⟨(line, n), hmem, ha⟩, (hf line n a ha).trans hn.symm⟩

theorem mem_filterMap_iff_exists {α : Type} {f : List Char → Nat → Option α} {lineOf : α → Int}
    (hf : ∀ line n a, f line n = some a → lineOf a = n) {a : α} : a ∈ b.numberedLines.filterMap (fun l => f l.1 l.2) ↔
      ∃ line, b.HasLine (lineOf a) line ∧ ∃ n : Nat, lineOf a = n ∧ f line n = some a := by
  constructor
  · intro h
    obtain ⟨l, hl, ha⟩ := List.mem_filterMap.1 h
    have hline := hf l.1 l.2 a ha
    exact ⟨l.1, hline ▸ hasLine_of_mem hl, l.2, hline, ha⟩
  · rintro ⟨line, h, n, hn, ha⟩
    exact ((mem_filterMap_iff hf h).2 ⟨n, hn, ha⟩).1

theorem line_of_variableSite? (line : List Char) (n : Nat) (v : Variable) (h : b.variableSite? line n = some v) :
    v.line = n := by
  obtain ⟨d, -, rfl⟩ := Option.map_eq_some_iff.1 h
  rfl

theorem mem_vars_iff (h : b.HasLine number line) {v : Variable} : v ∈ b.facts.vars ∧ v.line = number ↔
    v.block = b.id ∧ v.line = number ∧
      ∃ rest, DefinesVariable v.kind v.name.toList rest line ∧ v.value = String.ofList (trim rest) := by
  refine (mem_filterMap_iff line_of_variableSite? h).trans ?_
  constructor
  · rintro ⟨n, rfl, hsite⟩
    obtain ⟨d, hd, rfl⟩ := Option.map_eq_some_iff.1 hsite
    obtain ⟨rest, hform, hvalue⟩ := (exists_definition?_iff (feed_notMem_of_hasLine h)).1 ⟨d, hd, rfl, rfl, rfl⟩
    exact ⟨rfl, rfl, rest, hform, congrArg String.ofList hvalue⟩
  · rintro ⟨hblock, hnumber, rest, hform, hvalue⟩
    obtain ⟨d, hd, hkind, hname, htrim⟩ := (exists_definition?_iff (feed_notMem_of_hasLine h)).2 ⟨rest, hform, rfl⟩
    obtain ⟨n, hn, -⟩ := exists_mem_of_hasLine h
    refine ⟨n, hn, ?_⟩
    obtain ⟨kind, name, value, block, place⟩ := v
    subst hblock hkind hname hvalue hn hnumber
    unfold variableSite?
    rw [hd, Option.map_some, htrim]

theorem exists_plainLabel_iff (h : b.HasLine number line) {name : String} :
    (∃ s ∈ b.facts.labels, s.kind = .label ∧ s.line = number ∧ s.label = name) ↔ OpensLabel name.toList line := by
  rw [← exists_labelHeader?_iff (feed_notMem_of_hasLine h)]
  constructor
  · rintro ⟨s, hs, hkind, hnumber, rfl⟩
    obtain ⟨n, -, hs⟩ := (mem_filterMap_iff (line_of_labelHeader b) h).1 ⟨mem_plainLabels.2 ⟨hs, hkind⟩, hnumber⟩
    obtain ⟨header, hheader, rfl⟩ := Option.map_eq_some_iff.1 hs
    exact ⟨header, hheader, rfl⟩
  · rintro ⟨header, hheader, rfl⟩
    obtain ⟨n, hn, -⟩ := exists_mem_of_hasLine h
    obtain ⟨hmem, hnumber⟩ := (mem_filterMap_iff (line_of_labelHeader b) h).2 ⟨n, hn, by rw [hheader]; rfl⟩
    obtain ⟨hs, hkind⟩ := mem_plainLabels.1 hmem
    exact ⟨_, hs, hkind, hnumber, rfl⟩

end Block

/-- On a line of a block the block records a variable exactly if the line defines one, and a plain label exactly if it
opens one: with the name on the line, and the variable with the trimmed rest of the line as its value. No line has two
of them. -/
theorem recorded_on_line {b : Block} {number : Int} {line : List Char} (hline : b.HasLine number line) :
    (∀ v : Variable, v ∈ b.facts.vars ∧ v.line = number ↔ v.block = b.id ∧ v.line = number ∧
        ∃ rest, DefinesVariable v.kind v.name.toList rest line ∧ v.value = String.ofList (trim rest)) ∧
      (∀ name : String, (∃ s ∈ b.facts.labels, s.kind = .label ∧ s.line = number ∧ s.label = name) ↔
        OpensLabel name.toList line) ∧
      (b.facts.vars.Pairwise fun v w => v.line < w.line) ∧
      (b.facts.labels.filter (·.kind = .label)).Pairwise fun s t => s.line < t.line := by
  refine ⟨fun v => Block.mem_vars_iff hline, fun name => Block.exists_plainLabel_iff hline, ?_, ?_⟩
  · exact Block.pairwise_filterMap Block.line_of_variableSite?
  · rw [Block.filter_labels]
    exact b.pairwise_plainLabels

/-- A variable with a dot in its name and a blank as its value, and a label with a list inside its parameter list. -/
def hall : Block := { id := "hall", content := "define hall.mood = \nlabel door(key=(1)) : pass" }

theorem recorded_on_line_hall : hall.HasLine 1 "define hall.mood = ".toList ∧
    (⟨.define, "hall.mood", "", "hall", 1⟩ : Variable) ∈ hall.facts.vars ∧
    hall.HasLine 2 "label door(key=(1)) : pass".toList ∧
    ∃ s ∈ hall.facts.labels, s.kind = .label ∧ s.line = 2 ∧ s.label = "door" := by
  have hfirst : hall.HasLine 1 "define hall.mood = ".toList := ⟨0, rfl, by decide⟩
  have hsecond : hall.HasLine 2 "label door(key=(1)) : pass".toList := ⟨1, rfl, by decide⟩
  have hmood : ∀ c ∈ "hall.mood".toList, isDottedChar c = true := List.all_eq_true.1 (by decide)
  have hdoor : ∀ c ∈ "door".toList, isNameChar c = true := List.all_eq_true.1 (by decide)
  refine ⟨hfirst, (((recorded_on_line hfirst).1 _).2 ⟨rfl, rfl, [' '], ?_, by decide⟩).1, hsecond,
    ((recorded_on_line hsecond).2.1 "door").2 ?_⟩
  · exact @DefinesVariable.mk _ _ [' '] [] [' '] [' '] (by decide) (by decide) (by decide) hmood (by decide) (by decide)
      (by decide)
  · exact @OpensLabel.mk _ [] [' '] [] "(key=(1)) ".toList " pass".toList (by decide) (by decide) (by decide) hdoor
      (by decide) (Or.inr ⟨"key=(1)".toList, [' '], by decide, by decide⟩)

end Plotline
