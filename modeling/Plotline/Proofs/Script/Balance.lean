import Mathlib.Data.List.Basic
import Plotline.Script.Arguments

/-!
# Well-formed argument lists

* `QuotedBody`: what may stand between the quotes of a literal of an argument list.
* `Balanced`: a text whose literals are closed and whose brackets are paired.
* `Gap`: the places of a balanced text outside its literals; `Gap.insert` puts a balanced text there.
* `callArguments_of_balanced`: a call takes a balanced text up to the parenthesis behind it.
* `pieces_intercalate`: balanced texts with commas between them have the pieces of each of them.
-/

namespace Plotline.Script
open Text

/-! ## Literals and brackets -/

/-- The text between two quotes `q` of an argument list. A backslash takes any character with it, and a literal may run
over several lines. -/
inductive QuotedBody (q : Char) : List Char → Prop
  | nil : QuotedBody q []
  | char {c : Char} {s : List Char} : c ≠ q → c ≠ '\\' → QuotedBody q s → QuotedBody q (c :: s)
  | escape {s : List Char} (c : Char) : QuotedBody q s → QuotedBody q ('\\' :: c :: s)

/-- The three kinds of brackets. -/
inductive Bracket where
  | round
  | square
  | curly
deriving DecidableEq, Repr

namespace Bracket

def opening : Bracket → Char
  | round => '('
  | square => '['
  | curly => '\x7b'

def closing : Bracket → Char
  | round => ')'
  | square => ']'
  | curly => '\x7d'

end Bracket

/-- A character that is neither a quote nor a bracket. -/
def IsPlain (c : Char) : Prop := isQuote c = false ∧ ∀ b : Bracket, c ≠ b.opening ∧ c ≠ b.closing

/-- A text whose literals are closed and whose brackets are paired. -/
inductive Balanced : List Char → Prop
  | nil : Balanced []
  | char {c : Char} {s : List Char} : IsPlain c → Balanced s → Balanced (c :: s)
  | quoted {q : Char} {body s : List Char} : isQuote q = true → QuotedBody q body → Balanced s →
      Balanced (q :: (body ++ q :: s))
  | nested (b : Bracket) {inner s : List Char} : Balanced inner → Balanced s →
      Balanced (b.opening :: (inner ++ b.closing :: s))

/-- The two sides of a place in a balanced text that stands in no literal. -/
inductive Gap : List Char → List Char → Prop
  | here {s : List Char} : Balanced s → Gap [] s
  | char {c : Char} {x y : List Char} : IsPlain c → Gap x y → Gap (c :: x) y
  | quoted {q : Char} {body x y : List Char} : isQuote q = true → QuotedBody q body → Gap x y →
      Gap (q :: (body ++ q :: x)) y
  | inside (b : Bracket) {x y s : List Char} : Gap x y → Balanced s → Gap (b.opening :: x) (y ++ b.closing :: s)
  | behind (b : Bracket) {inner x y : List Char} : Balanced inner → Gap x y →
      Gap (b.opening :: (inner ++ b.closing :: x)) y

theorem Balanced.append {s t : List Char} (hs : Balanced s) (ht : Balanced t) : Balanced (s ++ t) := by
  induction hs with
  | nil => exact ht
  | char hc _ ih => exact .char hc ih
  | quoted hq hbody _ ih =>
      rw [List.cons_append, List.append_assoc, List.cons_append]
      exact .quoted hq hbody ih
  | nested b hinner _ _ ih =>
      rw [List.cons_append, List.append_assoc, List.cons_append]
      exact .nested b hinner ih

theorem Gap.insert {x y k : List Char} (h : Gap x y) (hk : Balanced k) : Balanced (x ++ (k ++ y)) := by
  induction h with
  | here hs => exact hk.append hs
  | char hc _ ih => exact .char hc ih
  | quoted hq hbody _ ih =>
      rw [List.cons_append, List.append_assoc, List.cons_append]
      exact .quoted hq hbody ih
  | @inside b x y s _ hs ih =>
      rw [List.cons_append, show x ++ (k ++ (y ++ b.closing :: s)) = x ++ (k ++ y) ++ b.closing :: s by simp]
      exact .nested b ih hs
  | behind b hinner _ ih =>
      rw [List.cons_append, List.append_assoc, List.cons_append]
      exact .nested b hinner ih

theorem Gap.balanced {x y : List Char} (h : Gap x y) : Balanced (x ++ y) := h.insert .nil

instance (c : Char) : Decidable (IsPlain c) :=
  decidable_of_iff (isQuote c = false ∧ ∀ b ∈ [Bracket.round, .square, .curly], c ≠ b.opening ∧ c ≠ b.closing)
    (and_congr_right fun _ => ⟨fun h b => h b (by cases b <;> simp), fun h b _ => h b⟩)

theorem balanced_of_plain : ∀ {s : List Char}, s.all (fun c => IsPlain c) = true → Balanced s
  | [], _ => .nil
  | _ :: _, h => by
    rw [List.all_cons, Bool.and_eq_true, decide_eq_true_eq] at h
    exact .char h.1 (balanced_of_plain h.2)

theorem quotedBody_of_plain {q : Char} : ∀ {s : List Char}, s.all (fun c => c ≠ q ∧ c ≠ '\\') = true → QuotedBody q s
  | [], _ => .nil
  | _ :: _, h => by
    rw [List.all_cons, Bool.and_eq_true, decide_eq_true_eq] at h
    exact .char h.1.1 h.1.2 (quotedBody_of_plain h.2)

theorem balanced_literal (q : Char) (hq : isQuote q = true) {s : List Char}
    (hs : s.all (fun c => c ≠ q ∧ c ≠ '\\') = true) : Balanced (q :: (s ++ [q])) :=
  .quoted hq (quotedBody_of_plain hs) .nil

theorem isPlain_comma : IsPlain ',' := by decide

theorem balanced_intercalate : ∀ {ts : List (List Char)}, (∀ t ∈ ts, Balanced t) → Balanced ([','].intercalate ts)
  | [], _ => .nil
  | [t], h => by simpa using h t
  | t :: u :: ts, h => by
    rw [List.intercalate_cons_cons]
    exact ((h t List.mem_cons_self).append (.char isPlain_comma .nil)).append
      (balanced_intercalate fun s hs => h s (List.mem_cons_of_mem t hs))

/-! ## How far a call reaches -/

theorem argumentsLength?_quotedBody {q : Char} {body : List Char} (h : QuotedBody q body) (hq : q ≠ '\\')
    (depth : Nat) (r : List Char) : ∀ seen, argumentsLength? depth (some q) seen (body ++ q :: r) =
      argumentsLength? depth none (seen + body.length + 1) r := by
  induction h with
  | nil =>
      intro seen
      rw [List.nil_append, argumentsLength?.eq_def]
      simp [hq]
  | char hc hback _ ih =>
      intro seen
      rw [List.cons_append, argumentsLength?.eq_def]
      simp only [hback, if_false, hc]
      rw [ih, List.length_cons]
      congr 1
      omega
  | escape c _ ih =>
      intro seen
      rw [List.cons_append, List.cons_append, argumentsLength?.eq_def]
      simp only [if_true]
      rw [ih, List.length_cons, List.length_cons]
      congr 1
      omega

theorem argumentsLength?_quote {q : Char} (hq : isQuote q = true) (depth seen : Nat) (r : List Char) :
    argumentsLength? depth none seen (q :: r) = argumentsLength? depth (some q) (seen + 1) r := by
  rw [argumentsLength?.eq_def]
  simp [hq]

theorem argumentsLength?_other {c : Char} (hq : isQuote c = false) (hopen : c ≠ '(') (hclose : c ≠ ')')
    (depth seen : Nat) (r : List Char) :
    argumentsLength? depth none seen (c :: r) = argumentsLength? depth none (seen + 1) r := by
  rw [argumentsLength?.eq_def]
  simp [hq, hopen, hclose]

theorem ne_backslash_of_isQuote {q : Char} (hq : isQuote q = true) : q ≠ '\\' := by
  rintro rfl
  cases hq

/-- A reader that looks for the end of a call is behind a balanced text where it was in front of it. -/
theorem argumentsLength?_balanced {s : List Char} (h : Balanced s) : ∀ (depth seen : Nat) (r : List Char),
    argumentsLength? depth none seen (s ++ r) = argumentsLength? depth none (seen + s.length) r := by
  induction h with
  | nil => exact fun _ _ _ => rfl
  | char hc _ ih =>
      intro depth seen r
      rw [List.cons_append, argumentsLength?_other hc.1 (hc.2 .round).1 (hc.2 .round).2, ih, List.length_cons]
      congr 1
      omega
  | quoted hq hbody _ ih =>
      intro depth seen r
      rw [List.cons_append, argumentsLength?_quote hq, List.append_assoc, List.cons_append,
        argumentsLength?_quotedBody hbody (ne_backslash_of_isQuote hq), ih, List.length_cons, List.length_append,
        List.length_cons]
      congr 1
      omega
  | nested b _ _ ihinner ih =>
      intro depth seen r
      rw [List.cons_append, List.append_assoc, List.cons_append, List.length_cons, List.length_append, List.length_cons]
      cases b with
      | round =>
          -- Only round brackets count here; the others are characters like any other.
          rw [Bracket.opening, Bracket.closing, argumentsLength?.eq_def]
          simp only [show isQuote '(' = false by decide, Bool.false_eq_true, if_false, if_true]
          rw [ihinner, argumentsLength?.eq_def]
          simp only [show isQuote ')' = false by decide, Bool.false_eq_true, if_false, show ')' ≠ '(' by decide,
            if_true]
          rw [ih]
          congr 1
          omega
      | square =>
          rw [Bracket.opening, Bracket.closing, argumentsLength?_other (by decide) (by decide) (by decide), ihinner,
            argumentsLength?_other (by decide) (by decide) (by decide), ih]
          congr 1
          omega
      | curly =>
          rw [Bracket.opening, Bracket.closing, argumentsLength?_other (by decide) (by decide) (by decide), ihinner,
            argumentsLength?_other (by decide) (by decide) (by decide), ih]
          congr 1
          omega

/-- A call takes a balanced text up to the parenthesis behind it. -/
theorem callArguments_of_balanced {args : List Char} (h : Balanced args) (rest : List Char) :
    callArguments (args ++ ')' :: rest) 0 = (args, args.length + 1) := by
  have hlength : argumentsLength? 0 none 0 (args ++ ')' :: rest) = some args.length := by
    rw [argumentsLength?_balanced h, argumentsLength?.eq_def]
    simp [show isQuote ')' = false by decide]
  unfold callArguments
  rw [List.drop_zero]
  simp only [hlength, List.take_left', Nat.zero_add]

/-! ## Pieces -/

namespace PieceState

theorem next_quotedBody {q : Char} {body : List Char} (h : QuotedBody q body) (hq : q ≠ '\\') (depth : Int) :
    (body ++ [q]).foldl next ⟨depth, some q, false⟩ = ⟨depth, none, false⟩ := by
  induction h with
  | nil => simp [next, hq]
  | char hc hback _ ih => simpa [next, hc, hback] using ih
  | escape c _ ih => simpa [next] using ih

theorem next_quote {q : Char} (hq : isQuote q = true) (depth : Int) :
    next ⟨depth, none, false⟩ q = ⟨depth, some q, false⟩ := by
  simp [next, hq]

theorem next_opening (b : Bracket) (depth : Int) : next ⟨depth, none, false⟩ b.opening = ⟨depth + 1, none, false⟩ := by
  cases b <;> rfl

theorem next_closing (b : Bracket) (depth : Int) : next ⟨depth, none, false⟩ b.closing = ⟨depth - 1, none, false⟩ := by
  cases b <;> rfl

theorem next_plain {c : Char} (h : IsPlain c) (depth : Int) : next ⟨depth, none, false⟩ c = ⟨depth, none, false⟩ := by
  obtain ⟨hround, hsquare, hcurly⟩ := And.intro (h.2 .round) (And.intro (h.2 .square) (h.2 .curly))
  unfold Bracket.opening Bracket.closing at hround hsquare hcurly
  simp [next, h.1, hround, hsquare, hcurly]

/-- A reader of an argument list is behind a balanced text where it was in front of it. -/
theorem next_balanced {s : List Char} (h : Balanced s) :
    ∀ depth, s.foldl next ⟨depth, none, false⟩ = ⟨depth, none, false⟩ := by
  induction h with
  | nil => exact fun _ => rfl
  | char hc _ ih =>
      intro depth
      rw [List.foldl_cons, next_plain hc, ih]
  | @quoted q body s hq hbody _ ih =>
      intro depth
      rw [List.foldl_cons, next_quote hq, show body ++ q :: s = body ++ [q] ++ s by simp, List.foldl_append,
        next_quotedBody hbody (ne_backslash_of_isQuote hq), ih]
  | nested b _ _ ihinner ih =>
      intro depth
      rw [List.foldl_cons, next_opening, List.foldl_append, ihinner, List.foldl_cons, next_closing,
        Int.add_sub_cancel, ih]

theorem next_of_isCut {st : PieceState} {c : Char} (h : st.isCut c = true) : st.next c = st := by
  obtain ⟨depth, quote, escaped⟩ := st
  cases quote with
  | some q => cases h
  | none =>
      obtain rfl : c = ',' := by
        simp only [isCut, Option.isNone_none, Bool.true_and, Bool.and_eq_true, decide_eq_true_eq] at h
        exact h.1
      rfl

end PieceState

/-- A comma cuts if a reader is behind the text in front of it in the state of the start. -/
theorem piecesFrom_comma (rest : List Char) : ∀ (s opened : List Char) (st : PieceState),
    s.foldl PieceState.next st = {} → piecesFrom st opened (s ++ ',' :: rest) = piecesFrom st opened s ++ pieces rest
  | [], _, _, rfl => rfl
  | c :: s, opened, st, h => by
    rw [List.foldl_cons] at h
    rw [List.cons_append, piecesFrom, piecesFrom]
    split
    · rename_i hcut
      rw [PieceState.next_of_isCut hcut] at h
      rw [piecesFrom_comma rest s [] st h, List.cons_append]
    · exact piecesFrom_comma rest s (c :: opened) (st.next c) h

theorem pieces_append_comma {s : List Char} (h : Balanced s) (rest : List Char) :
    pieces (s ++ ',' :: rest) = pieces s ++ pieces rest :=
  piecesFrom_comma rest s [] {} (PieceState.next_balanced h 0)

theorem pieces_intercalate : ∀ {ts : List (List Char)}, ts ≠ [] → (∀ t ∈ ts, Balanced t) →
    pieces ([','].intercalate ts) = ts.flatMap pieces
  | [], hne, _ => absurd rfl hne
  | [t], _, _ => by simp
  | t :: u :: ts, _, h => by
    rw [List.intercalate_cons_cons, List.append_assoc, List.singleton_append,
      pieces_append_comma (h t List.mem_cons_self),
      pieces_intercalate (List.cons_ne_nil u ts) fun s hs => h s (List.mem_cons_of_mem t hs)]
    rfl

end Plotline.Script
