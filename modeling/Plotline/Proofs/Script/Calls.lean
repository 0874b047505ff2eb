import Mathlib.Data.List.Infix
import Plotline.Script.Arguments

/-!
# How far a call reaches

* `Reading`: where a reader of an argument list stands.
* `Reading.outer`: the characters that a reader meets outside literals.
* `Enclosed`: a text that ends outside literals and whose round brackets are paired, literals aside.
* `argumentsLength?_eq_some_iff`: the parenthesis that ends a call is the one behind an enclosed text.
* `callArguments_enclosed`: the arguments of a call are the enclosed text in front of such a parenthesis, or the whole
  rest of the text if there is none.
-/

namespace Plotline.Script

/-! ## Texts with paired brackets -/

/-- Where a reader stands: outside literals, in a literal, or in one behind a backslash that takes the next
character. -/
inductive Reading where
  | outside
  | inside (quote : Char)
  | escaped (quote : Char)
deriving DecidableEq, Repr

namespace Reading

/-- Where the reader stands behind a character. -/
def next : Reading → Char → Reading
  | outside, c => if isQuote c then inside c else outside
  | inside q, c => if c = '\\' then escaped q else if c = q then outside else inside q
  | escaped q, _ => inside q

/-- The characters that the reader meets while it stands outside literals. -/
def outer (r : Reading) : List Char → List Char
  | [] => []
  | c :: s => if r = outside then c :: (r.next c).outer s else (r.next c).outer s

/-- Whether a character counts as the bracket `b`. -/
def counts (r : Reading) (b c : Char) : Nat := if r = outside ∧ c = b then 1 else 0

theorem counts_of_ne (r : Reading) {b c : Char} (h : c ≠ b) : r.counts b c = 0 := if_neg fun hc => h hc.2

theorem count_outer_cons (r : Reading) (b c : Char) (s : List Char) :
    (r.outer (c :: s)).count b = r.counts b c + ((r.next c).outer s).count b := by
  unfold counts
  rw [outer]
  by_cases hr : r = outside
  · rw [if_pos hr, List.count_cons]
    by_cases hc : c = b <;> simp [hr, hc, Nat.add_comm]
  · simp [hr]

end Reading

/-- Behind `depth` open brackets, a text that ends outside literals and closes all of them, but never one that is not
open. Brackets in literals do not count. -/
structure Closes (r : Reading) (depth : Nat) (s : List Char) : Prop where
  ends : s.foldl Reading.next r = .outside
  prefixes : ∀ p, p <+: s → (r.outer p).count ')' ≤ depth + (r.outer p).count '('
  total : depth + (r.outer s).count '(' = (r.outer s).count ')'

/-- A text whose literals are closed and whose round brackets are paired, literals aside. -/
def Enclosed (s : List Char) : Prop := Closes .outside 0 s

instance (r : Reading) (depth : Nat) (s : List Char) : Decidable (Closes r depth s) :=
  decidable_of_iff (s.foldl Reading.next r = .outside ∧
      (∀ p ∈ s.inits, (r.outer p).count ')' ≤ depth + (r.outer p).count '(') ∧
      depth + (r.outer s).count '(' = (r.outer s).count ')')
    ⟨fun h => ⟨h.1, fun p hp => h.2.1 p ((List.mem_inits p s).2 hp), h.2.2⟩,
      fun h => ⟨h.ends, fun p hp => h.prefixes p ((List.mem_inits p s).1 hp), h.total⟩⟩

instance (s : List Char) : Decidable (Enclosed s) := inferInstanceAs (Decidable (Closes .outside 0 s))

theorem closes_nil {r : Reading} {depth : Nat} : Closes r depth [] ↔ r = .outside ∧ depth = 0 := by
  constructor
  · exact fun h => ⟨h.ends, h.total⟩
  · rintro ⟨rfl, rfl⟩
    exact ⟨rfl, fun p hp => by rw [List.prefix_nil.1 hp]; exact Nat.le_refl 0, rfl⟩

theorem closes_cons {r : Reading} {depth : Nat} {c : Char} {s : List Char} : Closes r depth (c :: s) ↔
    r.counts ')' c ≤ depth + r.counts '(' c ∧ Closes (r.next c) (depth + r.counts '(' c - r.counts ')' c) s := by
  constructor
  · intro h
    have hfirst := h.prefixes [c] (List.cons_prefix_cons.2 ⟨rfl, List.nil_prefix⟩)
    have htotal := h.total
    rw [Reading.count_outer_cons, Reading.count_outer_cons] at hfirst htotal
    have hstep : r.counts ')' c ≤ depth + r.counts '(' c := hfirst
    refine ⟨hstep, h.ends, fun p hp => ?_, by omega⟩
    have hlonger := h.prefixes (c :: p) (List.cons_prefix_cons.2 ⟨rfl, hp⟩)
    rw [Reading.count_outer_cons, Reading.count_outer_cons] at hlonger
    omega
  · rintro ⟨hstep, h⟩
    refine ⟨h.ends, fun p hp => ?_, ?_⟩
    · rcases List.prefix_cons_iff.1 hp with rfl | ⟨t, rfl, ht⟩
      · exact Nat.zero_le _
      · have hshorter := h.prefixes t ht
        rw [Reading.count_outer_cons, Reading.count_outer_cons]
        omega
    · have htotal := h.total
      rw [Reading.count_outer_cons, Reading.count_outer_cons]
      omega

/-! ## The parenthesis that ends a call -/

/-- At offset `n` stands the parenthesis that ends a call: what is in front of it closes all other brackets. -/
structure EndsCall (r : Reading) (depth : Nat) (s : List Char) (n : Nat) : Prop where
  closes : Closes r depth (s.take n)
  closing : s[n]? = some ')'

theorem endsCall_zero {r : Reading} {depth : Nat} {c : Char} {s : List Char} :
    EndsCall r depth (c :: s) 0 ↔ r = .outside ∧ depth = 0 ∧ c = ')' := by
  constructor
  · intro h
    obtain ⟨hr, hdepth⟩ := closes_nil.1 h.closes
    exact ⟨hr, hdepth, Option.some.inj h.closing⟩
  · rintro ⟨hr, hdepth, rfl⟩
    exact ⟨closes_nil.2 ⟨hr, hdepth⟩, rfl⟩

theorem endsCall_succ {r : Reading} {depth n : Nat} {c : Char} {s : List Char} :
    EndsCall r depth (c :: s) (n + 1) ↔ r.counts ')' c ≤ depth + r.counts '(' c ∧
      EndsCall (r.next c) (depth + r.counts '(' c - r.counts ')' c) s n := by
  constructor
  · intro h
    obtain ⟨hstep, hcloses⟩ := closes_cons.1 h.closes
    exact ⟨hstep, hcloses, h.closing⟩
  · rintro ⟨hstep, h⟩
    exact ⟨closes_cons.2 ⟨hstep, h.closes⟩, h.closing⟩

/-- Where the reader stands in a literal with the given quote, or outside. -/
def Reading.ofQuote : Option Char → Reading
  | none => .outside
  | some q => .inside q

theorem exists_endsCall_cons {r : Reading} (r' : Reading) {depth : Nat} (depth' : Nat) {seen m : Nat} {c : Char}
    {s : List Char} (hhere : ¬ (r = .outside ∧ depth = 0 ∧ c = ')')) (hnext : r.next c = r')
    (hdepth : depth + r.counts '(' c = depth' + r.counts ')' c) :
    (∃ n, m = seen + n ∧ EndsCall r depth (c :: s) n) ↔ ∃ n, m = seen + 1 + n ∧ EndsCall r' depth' s n := by
  have hdepth' : depth + r.counts '(' c - r.counts ')' c = depth' := by omega
  subst hnext hdepth'
  constructor
  · rintro ⟨n, hm, h⟩
    cases n with
    | zero => exact absurd (endsCall_zero.1 h) hhere
    | succ n => exact ⟨n, by omega, (endsCall_succ.1 h).2⟩
  · rintro ⟨n, hm, h⟩
    exact ⟨n + 1, by omega, endsCall_succ.2 ⟨by omega, h⟩⟩

theorem not_endsCall_nil {r : Reading} {depth n : Nat} : ¬ EndsCall r depth [] n := by
  intro h
  have hclosing := h.closing
  rw [List.getElem?_nil] at hclosing
  cases hclosing

/-- The parenthesis that ends a call is the one behind a text that closes the open brackets. -/
theorem argumentsLength?_eq_some_iff {depth seen m : Nat} {quote : Option Char} {s : List Char} :
    argumentsLength? depth quote seen s = some m ↔
      ∃ n, m = seen + n ∧ EndsCall (.ofQuote quote) depth s n := by
  fun_induction argumentsLength? depth quote seen s with
  | case1 depth quote seen => simp [not_endsCall_nil]
  | case2 depth seen q =>
      -- A backslash at the end of the text takes nothing with it.
      rw [Reading.ofQuote, exists_endsCall_cons (.escaped q) depth (by simp) rfl rfl]
      simp [not_endsCall_nil]
  | case3 depth seen q d s ih =>
      rw [ih, Reading.ofQuote, exists_endsCall_cons (.escaped q) depth (by simp) rfl rfl,
        exists_endsCall_cons (.inside q) depth (by simp) rfl rfl]
  | case4 depth seen c s q hback ih =>
      have hnext : (Reading.inside q).next c = .ofQuote (if c = q then none else some q) := by
        rw [Reading.next, if_neg hback]
        split <;> rfl
      rw [ih, Reading.ofQuote, exists_endsCall_cons _ _ (by simp) hnext rfl]
  | case5 depth seen c s hquote ih =>
      have hplain : c ≠ '(' ∧ c ≠ ')' := by
        constructor <;> rintro rfl <;> cases hquote
      have hnext : Reading.outside.next c = .inside c := if_pos hquote
      have hdepth : depth + Reading.outside.counts '(' c = depth + Reading.outside.counts ')' c := by
        rw [Reading.counts_of_ne _ hplain.1, Reading.counts_of_ne _ hplain.2]
      rw [ih, Reading.ofQuote, Reading.ofQuote, exists_endsCall_cons _ _ (by simp [hplain.2]) hnext hdepth]
  | case6 depth seen s hquote ih =>
      rw [ih, Reading.ofQuote, exists_endsCall_cons .outside (depth + 1) (by simp) rfl rfl]
  | case7 seen s hquote hopen =>
      constructor
      · intro h
        exact ⟨0, (Option.some.inj h).symm, endsCall_zero.2 ⟨rfl, rfl, rfl⟩⟩
      · rintro ⟨n, rfl, h⟩
        cases n with
        | zero => rfl
        | succ n => exact absurd (endsCall_succ.1 h).1 (by decide)
  | case8 seen s depth hquote hopen ih =>
      rw [ih, Reading.ofQuote, exists_endsCall_cons .outside depth (by simp) rfl rfl]
  | case9 depth seen c s hquote hopen hclose ih =>
      have hnext : Reading.outside.next c = .outside := if_neg hquote
      have hdepth : depth + Reading.outside.counts '(' c = depth + Reading.outside.counts ')' c := by
        rw [Reading.counts_of_ne _ hopen, Reading.counts_of_ne _ hclose]
      rw [ih, Reading.ofQuote, exists_endsCall_cons _ _ (by simp [hclose]) hnext hdepth]

/-- A call ends at the parenthesis behind an enclosed text. -/
theorem endsCall_outside_iff {s : List Char} {n : Nat} : EndsCall .outside 0 s n ↔
    ∃ args rest, Enclosed args ∧ s = args ++ ')' :: rest ∧ n = args.length := by
  constructor
  · intro h
    obtain ⟨hn, hc⟩ := List.getElem?_eq_some_iff.1 h.closing
    refine ⟨s.take n, s.drop (n + 1), h.closes, ?_, ?_⟩
    · rw [← hc, List.getElem_cons_drop, List.take_append_drop]
    · rw [List.length_take, Nat.min_eq_left (Nat.le_of_lt hn)]
  · rintro ⟨args, rest, hargs, rfl, rfl⟩
    exact ⟨by rwa [List.take_left], by rw [List.getElem?_append_right (Nat.le_refl _), Nat.sub_self]; rfl⟩

theorem argumentsLength?_start_iff {s : List Char} {n : Nat} : argumentsLength? 0 none 0 s = some n ↔
    ∃ args rest, Enclosed args ∧ s = args ++ ')' :: rest ∧ n = args.length := by
  rw [argumentsLength?_eq_some_iff, ← endsCall_outside_iff]
  simp [Reading.ofQuote]

/-- **The arguments of a call.** In front of a closing parenthesis, an enclosed text is taken as it is. At any place of
any text, the arguments are such a text, and the call ends behind the parenthesis; or there is none, and the call takes
the whole rest of the text. -/
theorem callArguments_enclosed :
    (∀ before args rest, Enclosed args →
      callArguments (before ++ args ++ ')' :: rest) before.length = (args, before.length + args.length + 1)) ∧
    ∀ text start,
      (∃ args rest, Enclosed args ∧ text.drop start = args ++ ')' :: rest ∧
        callArguments text start = (args, start + args.length + 1)) ∨
      (¬ ∃ args rest, Enclosed args ∧ text.drop start = args ++ ')' :: rest) ∧
        callArguments text start = (text.drop start, text.length) := by
  have hclosed : ∀ {text start args rest}, Enclosed args → text.drop start = args ++ ')' :: rest →
      callArguments text start = (args, start + args.length + 1) := by
    intro text start args rest hargs hdrop
    have hlength := argumentsLength?_start_iff.2 ⟨args, rest, hargs, hdrop, rfl⟩
    unfold callArguments
    simp only [hlength]
    rw [hdrop, List.take_left]
  refine ⟨fun before args rest hargs => hclosed hargs (by rw [List.append_assoc, List.drop_left]), fun text start => ?_⟩
  by_cases hends : ∃ args rest, Enclosed args ∧ text.drop start = args ++ ')' :: rest
  · obtain ⟨args, rest, hargs, hdrop⟩ := hends
    exact Or.inl ⟨args, rest, hargs, hdrop, hclosed hargs hdrop⟩
  · refine Or.inr ⟨hends, ?_⟩
    have hlength : argumentsLength? 0 none 0 (text.drop start) = none := by
      rw [Option.eq_none_iff_forall_ne_some]
      intro n hn
      obtain ⟨args, rest, hargs, hdrop, -⟩ := argumentsLength?_start_iff.1 hn
      exact hends ⟨args, rest, hargs, hdrop⟩
    unfold callArguments
    simp only [hlength]

/-- The arguments of a call with a parenthesis and an escaped quote in a literal, and a call inside. -/
def sayArguments : List Char := "\"say \\\")\", x=f(1)".toList

theorem callArguments_enclosed_say : Enclosed sayArguments ∧
    callArguments ("Character(".toList ++ sayArguments ++ ')' :: " trailing".toList) 10 =
      (sayArguments, 10 + sayArguments.length + 1) := by
  have hargs : Enclosed sayArguments := by decide +kernel
  exact ⟨hargs, callArguments_enclosed.1 "Character(".toList sayArguments " trailing".toList hargs⟩

end Plotline.Script
