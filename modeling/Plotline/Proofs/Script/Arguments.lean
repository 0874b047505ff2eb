import Plotline.Proofs.Script.Heads
import Plotline.Proofs.Tables

/-!
# The arguments of a list

* `Assigns`: the pieces of the form `NAME = VALUE`; `keyword?_eq_some_iff`: no others give a keyword a value.
* `keywords_ofText`, `positional_ofText`: the arguments of a list, read off its pieces.
* `Single`: a text without a comma outside its literals and brackets; `pieces_single`: it is not cut.
* `pieces_joined`: arguments joined by commas are the pieces of the list.
* `Splits`, `ofText_joined`: each of them is read by itself, as a positional argument or as a keyword and its value.
-/

namespace Plotline.Script
open Text

/-! ## Pieces that give a keyword a value -/

/-- A text with no blank at either end. -/
structure IsTrimmed (s : List Char) : Prop where
  head : ∀ c ∈ s.head?, isBlank c = false
  last : ∀ c ∈ s.getLast?, isBlank c = false

instance (s : List Char) : Decidable (IsTrimmed s) :=
  decidable_of_iff (s.head?.all (!isBlank ·) = true ∧ s.getLast?.all (!isBlank ·) = true)
    ⟨fun h => ⟨by simpa [Option.all_eq_true] using h.1, by simpa [Option.all_eq_true] using h.2⟩,
      fun h => ⟨by simpa [Option.all_eq_true] using h.head, by simpa [Option.all_eq_true] using h.last⟩⟩

theorem skipBlanks_eq_self {s : List Char} (h : ∀ c ∈ s.head?, isBlank c = false) : skipBlanks s = s := by
  cases s with
  | nil => rfl
  | cons c s => exact List.dropWhile_cons_of_neg (by simp [h c rfl])

theorem trimEnd_eq_self {s : List Char} (h : ∀ c ∈ s.getLast?, isBlank c = false) : trimEnd s = s := by
  have hreverse : s.reverse.dropWhile isBlank = s.reverse := skipBlanks_eq_self (by rwa [List.head?_reverse])
  rw [trimEnd, hreverse, List.reverse_reverse]

theorem IsTrimmed.trim_eq {s : List Char} (h : IsTrimmed s) : trim s = s := by
  rw [trim, skipBlanks_eq_self h.head, trimEnd_eq_self h.last]

theorem isBlank_of_head?_skipBlanks {s : List Char} : ∀ c ∈ (skipBlanks s).head?, isBlank c = false := by
  intro c hc
  have hfirst := List.head?_dropWhile_not isBlank s
  rw [show (s.dropWhile isBlank).head? = some c from hc] at hfirst
  simpa using hfirst

/-- The pieces of the form `NAME = VALUE`. A name is any run of ASCII letters, digits and underscores. Blanks may stand
on both sides of the equals sign, but no second equals sign directly behind it. -/
inductive Assigns (n v : List Char) : List Char → Prop
  | mk {w₁ w₂ : List Char} : n ≠ [] → (∀ c ∈ n, isNameChar c = true) → IsBlanks w₁ → IsBlanks w₂ → v ≠ [] →
      (∀ c ∈ v.head?, isBlank c = false) → (w₂ ++ v).head? ≠ some '=' → Assigns n v (n ++ (w₁ ++ '=' :: (w₂ ++ v)))

theorem getLast?_value {n w₁ w₂ v : List Char} (hv : v ≠ []) :
    (n ++ (w₁ ++ '=' :: (w₂ ++ v))).getLast? = v.getLast? := by
  rw [← List.singleton_append, ← List.append_assoc, ← List.append_assoc, ← List.append_assoc,
    List.getLast?_append_of_ne_nil _ hv]

theorem after?_equals_eq_none_iff {s : List Char} : after? ['='] s = none ↔ s.head? ≠ some '=' := by
  cases s with
  | nil => simp [after?]
  | cons c s => simp [after?, eq_comm]

theorem assigns_of_keyword? {p n v : List Char} (hp : IsTrimmed p) (h : keyword? p = some (n, v)) : Assigns n v p := by
  simp only [keyword?, skipBlanks_eq_self hp.head, Option.bind_eq_bind, Option.bind_eq_some_iff] at h
  obtain ⟨⟨m, s₁⟩, hname, s₂, hequals, h⟩ := h
  split at h
  · cases h
  · rename_i hdouble
    split at h
    · cases h
    · rename_i hvalue
      obtain ⟨rfl, rfl⟩ := Prod.mk.inj (Option.some.inj h)
      obtain ⟨hne, hchars, rfl⟩ := exists_run_of_run? hname
      obtain ⟨w₁, hw₁, rfl⟩ := afterMark?_eq_some hequals
      obtain ⟨w₂, hw₂, hs₂⟩ := exists_blanks_append s₂
      have hv : skipBlanks s₂ ≠ [] := by
        intro hnil
        rw [hnil] at hvalue
        exact hvalue rfl
      have hlast : ∀ c ∈ (skipBlanks s₂).getLast?, isBlank c = false := by
        have hpiece := hp.last
        rwa [hs₂, getLast?_value hv] at hpiece
      have hsingle : (w₂ ++ skipBlanks s₂).head? ≠ some '=' := by
        rw [← hs₂]
        exact after?_equals_eq_none_iff.1 (Option.not_isSome_iff_eq_none.1 hdouble)
      rw [trimEnd_eq_self hlast]
      have hform := Assigns.mk hne hchars hw₁ hw₂ hv isBlank_of_head?_skipBlanks hsingle
      rwa [← hs₂] at hform

/-- The recogniser of keyword arguments accepts the pieces of the form `NAME = VALUE` and nothing else. -/
theorem keyword?_eq_some_iff {p n v : List Char} (hp : IsTrimmed p) : keyword? p = some (n, v) ↔ Assigns n v p := by
  refine ⟨assigns_of_keyword? hp, fun h => ?_⟩
  obtain @⟨w₁, w₂, hne, hchars, hw₁, hw₂, hv, hhead, hsingle⟩ := h
  have hskip : skipBlanks (w₂ ++ v) = v := by
    obtain ⟨c, r, rfl⟩ := List.exists_cons_of_ne_nil hv
    exact skipBlanks_blanks_append hw₂ (hhead c rfl) r
  have hlast : ∀ c ∈ v.getLast?, isBlank c = false := by
    have hpiece := hp.last
    rwa [getLast?_value hv] at hpiece
  simp [keyword?, skipBlanks_eq_self hp.head, name?_append_equals hne hchars hw₁,
    afterMark?_append hw₁ (show isBlank '=' = false by decide), after?_equals_eq_none_iff.2 hsingle, hskip,
    trimEnd_eq_self hlast, hv]

/-! ## The arguments of a list -/

/-- The piece gives a keyword a value. -/
def Gives (n : String) (piece : List Char) : Prop := ∃ v, keyword? piece = some (n.toList, v)

/-- The piece is a positional argument. -/
def IsPositional (piece : List Char) : Prop := piece ≠ [] ∧ keyword? piece = none

def given? (piece : List Char) : Option (String × String) :=
  (keyword? piece).map fun e => (String.ofList e.1, String.ofList e.2)

def givenValue? (n : String) (piece : List Char) : Option String :=
  (keyword? piece).bind fun e => if String.ofList e.1 = n then some (String.ofList e.2) else none

def positional? (piece : List Char) : Option String :=
  if piece = [] then none
  else match keyword? piece with
    | some _ => none
    | none => some (String.ofList piece)

theorem isSome_givenValue?_iff {n : String} {piece : List Char} :
    (givenValue? n piece).isSome = true ↔ Gives n piece := by
  unfold givenValue? Gives
  cases h : keyword? piece with
  | none => simp
  | some e =>
      obtain ⟨m, v⟩ := e
      rw [Option.bind_some]
      by_cases hm : String.ofList m = n
      · subst hm
        simp
      · have hne : m ≠ n.toList := by
          rintro rfl
          exact hm String.ofList_toList
        simp [hm, hne]

theorem isSome_positional?_iff {piece : List Char} : (positional? piece).isSome = true ↔ IsPositional piece := by
  unfold positional? IsPositional
  by_cases hnil : piece = []
  · simp [hnil]
  · cases h : keyword? piece <;> simp [hnil]

namespace Arguments

theorem keywords_add (a : Arguments) (piece : List Char) :
    (a.add piece).keywords = (given? piece).elim a.keywords fun e => a.keywords.insert e.1 e.2 := by
  unfold add given?
  cases piece with
  | nil => rfl
  | cons c r =>
      rw [List.isEmpty_cons, if_neg Bool.false_ne_true]
      cases keyword? (c :: r) <;> rfl

theorem positional_add (a : Arguments) (piece : List Char) :
    (a.add piece).positional = a.positional ++ (positional? piece).toList := by
  unfold add positional?
  cases piece with
  | nil => simp
  | cons c r =>
      rw [List.isEmpty_cons, if_neg Bool.false_ne_true, if_neg (List.cons_ne_nil c r)]
      cases keyword? (c :: r) <;> simp

theorem keywords_foldl_add : ∀ (ps : List (List Char)) (a : Arguments), (ps.foldl add a).keywords =
    (ps.filterMap given?).foldl (fun t e => t.insert e.1 e.2) a.keywords
  | [], _ => rfl
  | p :: ps, a => by
    rw [List.foldl_cons, keywords_foldl_add ps, keywords_add, List.filterMap_cons]
    cases given? p <;> rfl

theorem positional_foldl_add : ∀ (ps : List (List Char)) (a : Arguments),
    (ps.foldl add a).positional = a.positional ++ ps.filterMap positional?
  | [], a => by simp
  | p :: ps, a => by
    rw [List.foldl_cons, positional_foldl_add ps, positional_add, List.append_assoc, List.filterMap_cons]
    cases positional? p <;> rfl

theorem keywords_ofText (args : List Char) : (ofText args).keywords = Table.ofList ((pieces args).filterMap given?) :=
  keywords_foldl_add (pieces args) ⟨[], ∅⟩

/-- The last value that a list gives a keyword counts. -/
theorem get?_keywords_ofText (args : List Char) (n : String) :
    (ofText args).keywords.get? n = ((pieces args).filterMap (givenValue? n)).getLast? := by
  rw [keywords_ofText, Table.get?_ofList, ← List.getLast?_map, List.filter_filterMap, List.map_filterMap]
  congr 2
  funext p
  unfold given? givenValue?
  cases keyword? p with
  | none => rfl
  | some e => by_cases hn : String.ofList e.1 = n <;> simp [hn]

theorem positional_ofText (args : List Char) : (ofText args).positional = (pieces args).filterMap positional? := by
  rw [ofText, positional_foldl_add, List.nil_append]

end Arguments

/-! ## Texts that are not cut -/

/-- A text whose literals are closed and whose brackets are paired, with no comma outside of them. -/
inductive Single : List Char → Prop
  | nil : Single []
  | char {c : Char} {s : List Char} : IsPlain c → c ≠ ',' → Single s → Single (c :: s)
  | quoted {q : Char} {body s : List Char} : isQuote q = true → QuotedBody q body → Single s →
      Single (q :: (body ++ q :: s))
  | nested (b : Bracket) {inner s : List Char} : Balanced inner → Single s →
      Single (b.opening :: (inner ++ b.closing :: s))

theorem Single.balanced {s : List Char} (h : Single s) : Balanced s := by
  induction h with
  | nil => exact .nil
  | char hc _ _ ih => exact .char hc ih
  | quoted hq hbody _ ih => exact .quoted hq hbody ih
  | nested b hinner _ ih => exact .nested b hinner ih

/-- No character of the text ends a piece for a reader that begins in `st`. -/
def Uncut : PieceState → List Char → Prop
  | _, [] => True
  | st, c :: s => st.isCut c = false ∧ Uncut (st.next c) s

theorem uncut_append : ∀ {s t : List Char} {st : PieceState},
    Uncut st s → Uncut (s.foldl PieceState.next st) t → Uncut st (s ++ t)
  | [], _, _, _, ht => ht
  | _ :: _, _, _, hs, ht => ⟨hs.1, uncut_append hs.2 ht⟩

theorem uncut_quotedBody {q : Char} {body : List Char} (h : QuotedBody q body) (depth : Int) :
    Uncut ⟨depth, some q, false⟩ (body ++ [q]) := by
  induction h with
  | nil => exact ⟨rfl, trivial⟩
  | @char c s hc hback _ ih =>
      have hnext : PieceState.next ⟨depth, some q, false⟩ c = ⟨depth, some q, false⟩ := by
        simp [PieceState.next, hc, hback]
      exact ⟨rfl, by rwa [hnext]⟩
  | escape c _ ih => exact ⟨rfl, rfl, ih⟩

section Parts
variable {depth : Int} {s : List Char}

theorem uncut_char {c : Char} (hc : IsPlain c) (hcut : c ≠ ',' ∨ depth ≠ 0) (hs : Uncut ⟨depth, none, false⟩ s) :
    Uncut ⟨depth, none, false⟩ (c :: s) := by
  refine ⟨?_, by rwa [PieceState.next_plain hc]⟩
  rcases hcut with hne | hne <;> simp [PieceState.isCut, hne]

theorem uncut_quoted {q : Char} {body : List Char} (hq : isQuote q = true) (hbody : QuotedBody q body)
    (hs : Uncut ⟨depth, none, false⟩ s) : Uncut ⟨depth, none, false⟩ (q :: (body ++ q :: s)) := by
  have hne : q ≠ ',' := by
    rintro rfl
    cases hq
  refine ⟨by simp [PieceState.isCut, hne], ?_⟩
  rw [PieceState.next_quote hq, show body ++ q :: s = body ++ [q] ++ s by simp]
  refine uncut_append (uncut_quotedBody hbody depth) ?_
  rwa [PieceState.next_quotedBody hbody (ne_backslash_of_isQuote hq)]

theorem uncut_nested (b : Bracket) {inner : List Char} (hinner : Balanced inner)
    (huncut : Uncut ⟨depth + 1, none, false⟩ inner) (hs : Uncut ⟨depth, none, false⟩ s) :
    Uncut ⟨depth, none, false⟩ (b.opening :: (inner ++ b.closing :: s)) := by
  have hopening : PieceState.isCut ⟨depth, none, false⟩ b.opening = false := by cases b <;> rfl
  have hclosing : PieceState.isCut ⟨depth + 1, none, false⟩ b.closing = false := by cases b <;> rfl
  refine ⟨hopening, ?_⟩
  rw [PieceState.next_opening]
  refine uncut_append huncut ?_
  rw [PieceState.next_balanced hinner]
  refine ⟨hclosing, ?_⟩
  rwa [PieceState.next_closing, Int.add_sub_cancel]

end Parts

/-- Inside brackets, nothing is cut. -/
theorem uncut_balanced {s : List Char} (h : Balanced s) :
    ∀ {depth : Int}, 0 < depth → Uncut ⟨depth, none, false⟩ s := by
  induction h with
  | nil => exact fun _ => trivial
  | char hc _ ih => exact fun hdepth => uncut_char hc (Or.inr hdepth.ne') (ih hdepth)
  | quoted hq hbody _ ih => exact fun hdepth => uncut_quoted hq hbody (ih hdepth)
  | nested b hinner _ ihinner ih =>
      exact fun hdepth => uncut_nested b hinner (ihinner (Int.lt_add_one_of_le hdepth.le)) (ih hdepth)

theorem uncut_single {s : List Char} (h : Single s) : Uncut {} s := by
  induction h with
  | nil => trivial
  | char hc hne _ ih => exact uncut_char hc (Or.inl hne) ih
  | quoted hq hbody _ ih => exact uncut_quoted hq hbody ih
  | nested b hinner _ ih => exact uncut_nested b hinner (uncut_balanced hinner Int.one_pos) ih

theorem piecesFrom_uncut : ∀ {s : List Char} {st : PieceState} (opened : List Char), Uncut st s →
    piecesFrom st opened s = [trim (opened.reverse ++ s)]
  | [], _, opened, _ => by rw [piecesFrom, List.append_nil]
  | c :: s, st, opened, h => by
    rw [piecesFrom, if_neg (by simp [h.1]), piecesFrom_uncut (c :: opened) h.2]
    simp

/-- A text without a comma outside its literals and brackets is one piece. -/
theorem pieces_single {s : List Char} (h : Single s) : pieces s = [trim s] :=
  piecesFrom_uncut [] (uncut_single h)

/-! ## Arguments joined by commas -/

/-- An argument: neither empty nor with a blank at either end, with closed literals and paired brackets, and with no
comma outside of them. -/
structure IsArgument (p : List Char) : Prop where
  ne_nil : p ≠ []
  trimmed : IsTrimmed p
  single : Single p

/-- A blank behind a comma belongs to no piece. -/
theorem pieces_blank_cons {p : List Char} (h : IsArgument p) : pieces (' ' :: p) = [p] := by
  rw [pieces_single (.char (by decide) (by decide) h.single), show trim (' ' :: p) = trim p from rfl, h.trimmed.trim_eq]

/-- Arguments joined by commas, each with a blank behind it. -/
def joined (ps : List (List Char)) : List Char := [',', ' '].intercalate ps

theorem joined_cons (p : List Char) : ∀ ps : List (List Char),
    joined (p :: ps) = [','].intercalate (p :: ps.map fun q => ' ' :: q)
  | [] => rfl
  | q :: ps => by
    have ih := joined_cons q ps
    unfold joined at ih ⊢
    rw [List.intercalate_cons_cons, ih, List.map_cons, List.intercalate_cons_cons]
    cases ps <;> simp

/-- The pieces of arguments joined by commas are these arguments; without any, there is one empty piece. -/
theorem pieces_joined {ps : List (List Char)} (h : ∀ p ∈ ps, IsArgument p) :
    pieces (joined ps) = if ps = [] then [[]] else ps := by
  cases ps with
  | nil => rfl
  | cons p ps =>
      obtain ⟨hp, hps⟩ := List.forall_mem_cons.1 h
      have hbalanced : ∀ t ∈ p :: ps.map fun q => ' ' :: q, Balanced t := by
        refine List.forall_mem_cons.2 ⟨hp.single.balanced, List.forall_mem_map.2 fun q hq => ?_⟩
        exact .char (by decide) (hps q hq).single.balanced
      have hrest : (ps.map fun q => ' ' :: q).flatMap pieces = ps := by
        rw [List.flatMap_map, List.flatMap_congr fun q hq => pieces_blank_cons (hps q hq)]
        simp
      rw [joined_cons, pieces_intercalate (List.cons_ne_nil _ _) hbalanced, List.flatMap_cons, hrest,
        pieces_single hp.single, hp.trimmed.trim_eq, if_neg (List.cons_ne_nil p ps)]
      rfl

/-- Arguments split into positional ones, which are taken as they are written, and pairs of keywords and values: each
argument of the form `NAME = VALUE` gives a pair, each other one is positional. -/
inductive Splits : (ps : List (List Char)) → (positional : List String) → (given : List (String × String)) → Prop
  | nil : Splits [] [] []
  | positional {p : List Char} {ps : List (List Char)} {xs : List String} {es : List (String × String)} :
      (∀ n v, ¬Assigns n v p) → Splits ps xs es → Splits (p :: ps) (String.ofList p :: xs) es
  | keyword {n v p : List Char} {ps : List (List Char)} {xs : List String} {es : List (String × String)} :
      Assigns n v p → Splits ps xs es → Splits (p :: ps) xs ((String.ofList n, String.ofList v) :: es)

theorem splits_filterMap : ∀ {ps : List (List Char)}, (∀ p ∈ ps, IsArgument p) →
    Splits ps (ps.filterMap positional?) (ps.filterMap given?)
  | [], _ => .nil
  | p :: ps, h => by
    obtain ⟨hp, hps⟩ := List.forall_mem_cons.1 h
    have ih := splits_filterMap hps
    rw [List.filterMap_cons, List.filterMap_cons]
    unfold positional? given? at ih ⊢
    rw [if_neg hp.ne_nil]
    cases hk : keyword? p with
    | none =>
        refine .positional (fun n v hform => ?_) ih
        rw [(keyword?_eq_some_iff hp.trimmed).2 hform] at hk
        cases hk
    | some e => exact .keyword ((keyword?_eq_some_iff hp.trimmed).1 hk) ih

/-- **Arguments are read one by one.** Arguments joined by commas are the pieces of the list, none lost, merged or cut.
Those of the form `NAME = VALUE` give the keywords, in order of their first arguments and each with the value of its
last one; the others are the positional arguments, in order. -/
theorem ofText_joined {ps : List (List Char)} (h : ∀ p ∈ ps, IsArgument p) :
    pieces (joined ps) = (if ps = [] then [[]] else ps) ∧
    ∃ given, Splits ps (Arguments.ofText (joined ps)).positional given ∧
      (Arguments.ofText (joined ps)).keywords.keys = (given.map (·.1)).eraseDups ∧
      ∀ n, (Arguments.ofText (joined ps)).keywords.get? n = ((given.filter (·.1 = n)).getLast?).map (·.2) := by
  have hpieces := pieces_joined h
  -- The empty piece of an empty list is no argument.
  have hread : ∀ {β : Type} (f : List Char → Option β), f [] = none →
      (pieces (joined ps)).filterMap f = ps.filterMap f := by
    intro β f hf
    rw [hpieces]
    split
    · rename_i hnil
      rw [hnil, List.filterMap_cons_none hf]
    · rfl
  refine ⟨hpieces, ps.filterMap given?, ?_, ?_, fun n => ?_⟩
  · rw [Arguments.positional_ofText, hread positional? rfl]
    exact splits_filterMap h
  · rw [Arguments.keywords_ofText, Table.keys_ofList, hread given? rfl]
  · rw [Arguments.keywords_ofText, Table.get?_ofList, hread given? rfl]

theorem single_append : ∀ {s t : List Char}, s.all (fun c => IsPlain c ∧ c ≠ ',') = true → Single t → Single (s ++ t)
  | [], _, _, ht => ht
  | _ :: _, _, hs, ht => by
    rw [List.all_cons, Bool.and_eq_true, decide_eq_true_eq] at hs
    exact .char hs.1.1 hs.1.2 (single_append hs.2 ht)

/-- Arguments with a call, a comparison, and a literal with a comma and a quote in it. -/
def eileen : List (List Char) :=
  ["\"Eileen\"", "kind=f(a, b)", "a == b", "kind = \"\\\", y\""].map String.toList

theorem ofText_joined_eileen : (∀ p ∈ eileen, IsArgument p) ∧ pieces (joined eileen) = eileen ∧
    ∃ given, Splits eileen (Arguments.ofText (joined eileen)).positional given ∧
      (Arguments.ofText (joined eileen)).keywords.keys = (given.map (·.1)).eraseDups ∧
      ∀ n, (Arguments.ofText (joined eileen)).keywords.get? n = ((given.filter (·.1 = n)).getLast?).map (·.2) := by
  have hname : Single "\"Eileen\"".toList := .quoted rfl (quotedBody_of_plain (s := "Eileen".toList) (by decide)) .nil
  have hcall : Single "kind=f(a, b)".toList :=
    single_append (s := "kind=f".toList) (by decide)
      (.nested .round (balanced_of_plain (s := "a, b".toList) (by decide)) .nil)
  have hcomparison : Single "a == b".toList := single_append (s := "a == b".toList) (by decide) .nil
  have hescape : Single "kind = \"\\\", y\"".toList :=
    single_append (s := "kind = ".toList) (by decide)
      (.quoted rfl (.escape '"' (quotedBody_of_plain (s := ", y".toList) (by decide))) .nil)
  have harguments : ∀ p ∈ eileen, IsArgument p :=
    List.forall_mem_cons.2 ⟨⟨by decide, by decide, hname⟩,
      List.forall_mem_cons.2 ⟨⟨by decide, by decide, hcall⟩,
      List.forall_mem_cons.2 ⟨⟨by decide, by decide, hcomparison⟩,
      List.forall_mem_singleton.2 ⟨by decide, by decide, hescape⟩⟩⟩⟩
  exact ⟨harguments, ofText_joined harguments⟩

/-- A comparison is positional, and a keyword that is given twice keeps its place and takes the later value. -/
example : (Arguments.ofText (joined eileen)).positional = ["\"Eileen\"", "a == b"] ∧
    (Arguments.ofText (joined eileen)).keywords.entries = [("kind", "\"\\\", y\"")] := by
  decide +kernel

end Plotline.Script
