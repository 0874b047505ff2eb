import Plotline.Proofs.Script.Arguments

/-!
# Comments in argument lists

The reader of argument lists knows no comments: a comment is read as a part of the list.

* `Unread`: a piece that the character of a definition does not depend on.
* `Character.ofCall_congr`: pieces that are not read may be replaced by others.
* `Opening`, `comment_unread`: a comment changes nothing if the argument it stands in is not read, with it and without.
* `comment_hides_color`: a comment behind a comma takes the colour of a character away.
-/

namespace Plotline.Script
open Text

/-! ## Pieces that are not read -/

def takenNames : List String :=
  ["name", "color", "image", "who_style", "who_prefix", "who_suffix", "what_color", "what_style", "what_prefix",
    "what_suffix", "slow", "slow_speed", "slow_abortable", "all_at_once", "window_style", "ctc", "ctc_position",
    "interact",
    "afm", "what_properties", "window_properties"]

/-- A character does not depend on a piece between the pieces `front` and `back`: what it gives a keyword that is taken
is given again later on, and it is not the positional argument that names the character. -/
structure Unread (front back : List (List Char)) (piece : List Char) : Prop where
  value : ∀ n ∈ takenNames, Gives n piece → ∃ p ∈ back, Gives n p
  name : IsPositional piece → (∃ p ∈ front, IsPositional p) ∨ ∃ p ∈ front ++ back, Gives "name" p

/-- Behind a positional argument, a piece that gives no keyword a value is not read. -/
theorem unread_of_positional {front back : List (List Char)} {piece : List Char} (hnone : keyword? piece = none)
    (h : ∃ p ∈ front, IsPositional p) : Unread front back piece := by
  refine ⟨fun n _ hgives => ?_, fun _ => Or.inl h⟩
  obtain ⟨v, hv⟩ := hgives
  rw [hnone] at hv
  cases hv

/-- A definition reads its keywords and, if it has no `name`, its first positional argument. -/
theorem Character.ofCall_congr {args args' : List Char}
    (hvalue : ∀ n ∈ takenNames, (Arguments.ofText args').keywords.get? n = (Arguments.ofText args).keywords.get? n)
    (hname : (Arguments.ofText args).keywords.get? "name" = none →
      (Arguments.ofText args').positional.head? = (Arguments.ofText args).positional.head?)
    (tag block : String) (profile : Option String) :
    Character.ofCall tag args' block profile = Character.ofCall tag args block profile := by
  have hshown : ((Arguments.ofText args').keywords.get? "name" <|> (Arguments.ofText args').positional.head?) =
      ((Arguments.ofText args).keywords.get? "name" <|> (Arguments.ofText args).positional.head?) := by
    rw [hvalue "name" (by decide)]
    cases h : (Arguments.ofText args).keywords.get? "name" with
    | none => exact hname h
    | some v => rfl
  unfold Character.ofCall
  simp only [hshown]
  simp (disch := decide) only [Arguments.text?, Arguments.truth?, hvalue]

section Replace
variable {front back ps ps' : List (List Char)} {n : String}

theorem filterMap_eq_nil_iff {f : List Char → Option String} {P : List Char → Prop}
    (hf : ∀ p, (f p).isSome = true ↔ P p) : ps.filterMap f = [] ↔ ∀ p ∈ ps, ¬P p := by
  rw [List.filterMap_eq_nil_iff]
  refine forall₂_congr fun p _ => ?_
  rw [← hf p, Option.not_isSome_iff_eq_none]

/-- Pieces that give a keyword nothing that is not given again may be replaced by such pieces. -/
theorem getLast?_filterMap_replace (h : ∀ p ∈ ps ++ ps', Gives n p → ∃ b ∈ back, Gives n b) :
    ((front ++ (ps' ++ back)).filterMap (givenValue? n)).getLast? =
      ((front ++ (ps ++ back)).filterMap (givenValue? n)).getLast? := by
  simp only [List.filterMap_append, List.getLast?_append]
  have hnil {qs : List (List Char)} : qs.filterMap (givenValue? n) = [] ↔ ∀ q ∈ qs, ¬Gives n q :=
    filterMap_eq_nil_iff fun _ => isSome_givenValue?_iff
  by_cases hback : ∃ b ∈ back, Gives n b
  · obtain ⟨b, hb, hgives⟩ := hback
    have hne : back.filterMap (givenValue? n) ≠ [] := fun hempty => hnil.1 hempty b hb hgives
    rw [List.getLast?_eq_some_getLast hne]
    rfl
  · have hnone : ∀ p ∈ ps ++ ps', ¬Gives n p := fun p hp hgives => hback (h p hp hgives)
    rw [hnil.2 fun p hp => hnone p (List.mem_append_left ps' hp),
      hnil.2 fun p hp => hnone p (List.mem_append_right ps hp)]

/-- Pieces behind the first positional argument may be replaced. -/
theorem head?_filterMap_replace (h : ∀ p ∈ ps ++ ps', IsPositional p → ∃ q ∈ front, IsPositional q) :
    ((front ++ (ps' ++ back)).filterMap positional?).head? =
      ((front ++ (ps ++ back)).filterMap positional?).head? := by
  simp only [List.filterMap_append, List.head?_append]
  have hnil {qs : List (List Char)} : qs.filterMap positional? = [] ↔ ∀ q ∈ qs, ¬IsPositional q :=
    filterMap_eq_nil_iff fun _ => isSome_positional?_iff
  by_cases hfront : ∃ q ∈ front, IsPositional q
  · obtain ⟨q, hq, hpositional⟩ := hfront
    have hne : front.filterMap positional? ≠ [] := fun hempty => hnil.1 hempty q hq hpositional
    rw [List.head?_eq_some_head hne]
    rfl
  · have hnone : ∀ p ∈ ps ++ ps', ¬IsPositional p := fun p hp hpositional => hfront (h p hp hpositional)
    rw [hnil.2 fun p hp => hnone p (List.mem_append_left ps' hp),
      hnil.2 fun p hp => hnone p (List.mem_append_right ps hp)]

end Replace

/-- Pieces that are not read may be replaced by such pieces. -/
theorem Character.ofCall_replace {args args' : List Char} {front ps ps' back : List (List Char)}
    (hargs : pieces args = front ++ (ps ++ back)) (hargs' : pieces args' = front ++ (ps' ++ back))
    (hunread : ∀ p ∈ ps ++ ps', Unread front back p) (tag block : String) (profile : Option String) :
    Character.ofCall tag args' block profile = Character.ofCall tag args block profile := by
  apply Character.ofCall_congr
  · intro n hn
    rw [Arguments.get?_keywords_ofText, Arguments.get?_keywords_ofText, hargs, hargs']
    exact getLast?_filterMap_replace fun p hp => (hunread p hp).value n hn
  · intro hname
    rw [Arguments.positional_ofText, Arguments.positional_ofText, hargs, hargs']
    refine head?_filterMap_replace fun p hp hpositional => ?_
    rcases (hunread p hp).name hpositional with hfirst | ⟨q, hq, hgives⟩
    · exact hfirst
    · -- A list with a piece that gives `name` has a value for it.
      rw [Arguments.get?_keywords_ofText, hargs, List.getLast?_eq_none_iff, List.filterMap_eq_nil_iff] at hname
      have hmem : q ∈ front ++ (ps ++ back) := by
        rcases List.mem_append.1 hq with hq | hq
        · exact List.mem_append_left _ hq
        · exact List.mem_append_right _ (List.mem_append_right _ hq)
      rw [← isSome_givenValue?_iff, hname q hmem] at hgives
      cases hgives

/-! ## Comments -/

/-- A text with a definition of a character, of which one argument is left open. -/
structure Opening where
  /-- The text up to the parenthesis that opens the arguments. -/
  before : List Char
  /-- The arguments in front of the open one. -/
  front : List (List Char)
  /-- The arguments behind the open one. -/
  back : List (List Char)
  /-- The text behind the parenthesis that closes the arguments. -/
  after : List Char

namespace Opening

/-- The arguments, with `t` for the open one. -/
def args (o : Opening) (t : List Char) : List Char := [','].intercalate (o.front ++ t :: o.back)

def rest (o : Opening) (t : List Char) : List Char := o.args t ++ ')' :: o.after

def text (o : Opening) (t : List Char) : List Char := o.before ++ o.rest t

/-- The arguments around the open one are well-formed. -/
def Sound (o : Opening) : Prop := ∀ t ∈ o.front ++ o.back, Balanced t

variable {o : Opening} {t : List Char}

theorem Sound.balanced (h : o.Sound) (ht : Balanced t) : ∀ s ∈ o.front ++ t :: o.back, Balanced s := by
  intro s hs
  rcases List.mem_append.1 hs with hs | hs
  · exact h s (List.mem_append_left _ hs)
  · rcases List.mem_cons.1 hs with rfl | hs
    · exact ht
    · exact h s (List.mem_append_right _ hs)

theorem Sound.balanced_args (h : o.Sound) (ht : Balanced t) : Balanced (o.args t) :=
  balanced_intercalate (h.balanced ht)

theorem Sound.callArguments (h : o.Sound) (ht : Balanced t) : (callArguments (o.rest t) 0).1 = o.args t :=
  congrArg Prod.fst (callArguments_of_balanced (h.balanced_args ht) o.after)

theorem Sound.pieces (h : o.Sound) (ht : Balanced t) :
    Script.pieces (o.args t) = o.front.flatMap Script.pieces ++ (Script.pieces t ++ o.back.flatMap Script.pieces) := by
  unfold args
  rw [pieces_intercalate (by simp) (h.balanced ht), List.flatMap_append, List.flatMap_cons]

end Opening

def comment (words : List Char) : List Char := '#' :: words ++ ['\n']

theorem isPlain_hash : IsPlain '#' := by decide

theorem isPlain_feed : IsPlain '\n' := by decide

/-- **Comments are read.** A comment at the end of a line of an argument list leaves the tag, the block and the profile
of the character as they are. A comment that is well-formed by itself is a part of the list, and it changes nothing if
neither the pieces of the argument it stands in nor those it makes of it are read. -/
theorem comment_unread {o : Opening} (hsound : o.Sound) {u v : List Char} (hgap : Gap u ('\n' :: v)) {i : Nat}
    {tag : List Char} (hdef : HasDefinition i o.before tag (o.rest (u ++ '\n' :: v))) (words : List Char)
    (block : String) : ∃ c c', (charactersIn (o.text (u ++ '\n' :: v)) block)[i]? = some c ∧
      (charactersIn (o.text (u ++ (comment words ++ v))) block)[i]? = some c' ∧
      c'.tag = c.tag ∧ c'.block = c.block ∧ c'.profile = c.profile ∧
      (Balanced words → c' = .ofCall c.tag (o.args (u ++ (comment words ++ v))) block c.profile ∧
        ((∀ p ∈ pieces (u ++ '\n' :: v) ++ pieces (u ++ (comment words ++ v)),
          Unread (o.front.flatMap pieces) (o.back.flatMap pieces) p) → c' = c)) := by
  obtain ⟨profile, hchar⟩ := hdef.exists_profile
  refine ⟨_, _, hchar _ block, hchar _ block, rfl, rfl, rfl, fun hwords => ?_⟩
  -- The line feed behind the comment is the one that was there before.
  have hwith : Balanced (u ++ (comment words ++ v)) := by
    have hinsert := hgap.insert (.char isPlain_hash hwords)
    simpa [comment] using hinsert
  rw [hsound.callArguments hwith, hsound.callArguments hgap.balanced]
  refine ⟨rfl, fun hunread => ?_⟩
  exact Character.ofCall_replace (hsound.pieces hgap.balanced) (hsound.pieces hwith) hunread _ _ _

/-- A definition with one argument on a line and a comma behind the last one. -/
def crew : Opening where
  before := "define e = Character(".toList
  front := ["\"Eve\"", "\n    kind=nvl", "\n    color=\"#fff\""].map String.toList
  back := []
  after := "\n".toList

theorem comment_unread_crew : crew.Sound ∧ Gap [] ['\n'] ∧
    HasDefinition 0 crew.before ['e'] (crew.rest ['\n']) ∧ Balanced " her colour, for now".toList ∧
    (∀ p ∈ pieces ['\n'] ++ pieces (comment " her colour, for now".toList),
      Unread (crew.front.flatMap pieces) (crew.back.flatMap pieces) p) ∧
    (charactersIn (crew.text (comment " her colour, for now".toList)) "b")[0]? =
      (charactersIn (crew.text ['\n']) "b")[0]? := by
  have hsound : crew.Sound := by
    have hname : Balanced "\"Eve\"".toList := balanced_literal '"' rfl (s := "Eve".toList) (by decide)
    have hkind : Balanced "\n    kind=nvl".toList := balanced_of_plain (by decide)
    have hcolor : Balanced "\n    color=\"#fff\"".toList :=
      (balanced_of_plain (s := "\n    color=".toList) (by decide)).append
        (balanced_literal '"' rfl (s := "#fff".toList) (by decide))
    exact List.forall_mem_cons.2 ⟨hname, List.forall_mem_cons.2 ⟨hkind, List.forall_mem_singleton.2 hcolor⟩⟩
  have hgap : Gap [] ['\n'] := .here (.char isPlain_feed .nil)
  have hdef : HasDefinition 0 crew.before ['e'] (crew.rest ['\n']) := ⟨0, by decide +kernel⟩
  have hwords : Balanced " her colour, for now".toList := balanced_of_plain (by decide)
  have hunread : ∀ p ∈ pieces ['\n'] ++ pieces (comment " her colour, for now".toList),
      Unread (crew.front.flatMap pieces) (crew.back.flatMap pieces) p := by
    have hnone : ∀ p ∈ pieces ['\n'] ++ pieces (comment " her colour, for now".toList), keyword? p = none := by
      decide +kernel
    exact fun p hp => unread_of_positional (hnone p hp)
      ⟨"\"Eve\"".toList, by decide +kernel, by decide, by decide +kernel⟩
  obtain ⟨c, c', hc, hc', -, -, -, hsame⟩ := comment_unread hsound hgap hdef " her colour, for now".toList "b"
  refine ⟨hsound, hgap, hdef, hwords, hunread, ?_⟩
  rw [show crew.text ['\n'] = crew.text ([] ++ '\n' :: []) from rfl, hc, ← (hsame hwords).2 hunread]
  exact hc'

/-- A definition whose second argument, on a line of its own, gives a colour. -/
def colored : Opening where
  before := "define e = Character(".toList
  front := ["\"Eve\"".toList]
  back := []
  after := "\n".toList

/-- A comment behind a comma is the beginning of the next argument, which then gives no colour. -/
theorem comment_hides_color : colored.Sound ∧ Gap "  ".toList "\n    color=\"#fff\"".toList ∧
    HasDefinition 0 colored.before ['e'] (colored.rest "  \n    color=\"#fff\"".toList) ∧
    (charactersIn (colored.text "  \n    color=\"#fff\"".toList) "b").map (·.color) = ["#fff"] ∧
    (charactersIn (colored.text "  # hers\n    color=\"#fff\"".toList) "b").map (·.color) = ["#DCE775"] := by
  have hname : Balanced "\"Eve\"".toList := balanced_literal '"' rfl (s := "Eve".toList) (by decide)
  have hcolor : Balanced "\n    color=\"#fff\"".toList :=
    (balanced_of_plain (s := "\n    color=".toList) (by decide)).append
      (balanced_literal '"' rfl (s := "#fff".toList) (by decide))
  exact ⟨List.forall_mem_singleton.2 hname, .char (by decide) (.char (by decide) (.here hcolor)),
    ⟨0, by decide +kernel⟩, by decide +kernel, by decide +kernel⟩

end Plotline.Script
