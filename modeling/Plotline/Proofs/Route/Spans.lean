import Plotline.Proofs.Story.Headers
import Plotline.Route.Graph

/-!
# Spans of labels

* `LabelSite.node`, `LabelSite.span`: the node of a plain label, and the span that begins at it.
* `nodeId_inj`: names without a colon can be read back from the name of a node.
* `getLast?_takeWhile_le`: in a list of growing measure, the last item of the head up to a bound has the largest
  measure below it.
* `enclosing?_map_span`: the span that encloses a line begins at the last label at or above it.
* `mem_zip_drop`: the pairs of a list with its tail are its neighbours.
* `Block.runsOn_span`: control runs on if no line strictly between two labels ends it.
-/

namespace Plotline
open Script

/-! ## Nodes -/

def LabelSite.node (s : LabelSite) : String := nodeId s.block s.label

def LabelSite.span (s : LabelSite) : Span := ⟨s.label, s.line, s.node⟩

theorem append_colon_inj {x y l m : List Char} (hl : ':' ∉ l) (hm : ':' ∉ m) (h : x ++ ':' :: l = y ++ ':' :: m) :
    x = y ∧ l = m := by
  have hlonger : ∀ {x y l m : List Char}, ':' ∉ l → ∀ z, y = x ++ z → ':' :: l = z ++ ':' :: m → x = y ∧ l = m := by
    intro x y l m hl z hz h
    rcases z with _ | ⟨c, z⟩
    · simp at hz h
      exact ⟨hz.symm, h⟩
    · simp at h
      exact absurd (by rw [h.2]; simp) hl
  rcases List.append_eq_append_iff.1 h with ⟨z, hz, h⟩ | ⟨z, hz, h⟩
  · exact hlonger hl z hz h
  · obtain ⟨hyx, hml⟩ := hlonger hm z hz h
    exact ⟨hyx.symm, hml.symm⟩

/-- Names without a colon can be read back from the name of a node. -/
theorem nodeId_inj {b c l m : String} (hl : ':' ∉ l.toList) (hm : ':' ∉ m.toList) (h : nodeId b l = nodeId c m) :
    b = c ∧ l = m := by
  have hchars : b.toList ++ ':' :: l.toList = c.toList ++ ':' :: m.toList := by
    have hlist := congrArg String.toList h
    unfold nodeId at hlist
    simpa [String.toList_append] using hlist
  obtain ⟨hbc, hlm⟩ := append_colon_inj hl hm hchars
  exact ⟨String.toList_injective hbc, String.toList_injective hlm⟩

/-! ## The last label above a line -/

section Sorted
variable {α : Type} (f : α → Int)

theorem takeWhile_le_eq_filter (bound : Int) : ∀ {xs : List α}, (xs.Pairwise fun a b => f a < f b) →
    xs.takeWhile (fun a => f a ≤ bound) = xs.filter fun a => f a ≤ bound
  | [], _ => rfl
  | x :: xs, h => by
    obtain ⟨hx, hxs⟩ := List.pairwise_cons.1 h
    rw [List.takeWhile_cons, List.filter_cons]
    by_cases hle : f x ≤ bound
    · rw [if_pos (by simpa using hle), if_pos (by simpa using hle), takeWhile_le_eq_filter bound hxs]
    · have hnone : xs.filter (fun a => f a ≤ bound) = [] := by
        rw [List.filter_eq_nil_iff]
        intro a ha
        have hlt := hx a ha
        simp only [decide_eq_true_eq]
        omega
      rw [if_neg (by simpa using hle), if_neg (by simpa using hle), hnone]

theorem getLast?_eq_some_iff_largest {xs : List α} (h : xs.Pairwise fun a b => f a < f b) {x : α} :
    xs.getLast? = some x ↔ x ∈ xs ∧ ∀ a ∈ xs, f a ≤ f x := by
  rcases List.eq_nil_or_concat xs with rfl | ⟨ys, z, rfl⟩
  · simp
  · rw [List.concat_eq_append] at h ⊢
    have hlt : ∀ a ∈ ys, f a < f z := fun a ha => (List.pairwise_append.1 h).2.2 a ha z (by simp)
    rw [List.getLast?_concat]
    constructor
    · intro hx
      obtain rfl := Option.some.inj hx
      refine ⟨by simp, fun a ha => ?_⟩
      rcases List.mem_append.1 ha with ha | ha
      · exact Int.le_of_lt (hlt a ha)
      · obtain rfl := List.mem_singleton.1 ha
        exact Int.le_refl _
    · rintro ⟨hx, hlargest⟩
      rcases List.mem_append.1 hx with hx | hx
      · have h₁ := hlt x hx
        have h₂ := hlargest z (by simp)
        omega
      · rw [List.mem_singleton.1 hx]

/-- The last item of the head up to a bound has the largest measure up to it. -/
theorem getLast?_takeWhile_le {xs : List α} (h : xs.Pairwise fun a b => f a < f b) {bound : Int} {x : α} :
    (xs.takeWhile fun a => f a ≤ bound).getLast? = some x ↔
      x ∈ xs ∧ f x ≤ bound ∧ ∀ a ∈ xs, f a ≤ bound → f a ≤ f x := by
  rw [takeWhile_le_eq_filter f bound h, getLast?_eq_some_iff_largest f (h.sublist List.filter_sublist)]
  simp only [List.mem_filter, decide_eq_true_eq, and_imp, and_assoc]

end Sorted

/-- Of spans from top to bottom, the one that encloses a line begins at the last label at or above it. -/
theorem enclosing?_map_span {sites : List LabelSite} (h : sites.Pairwise fun s t => s.line < t.line) {line : Int}
    {span : Span} : enclosing? (sites.map LabelSite.span) line = some span ↔
      ∃ s, (s ∈ sites ∧ s.line ≤ line ∧ ∀ t ∈ sites, t.line ≤ line → t.line ≤ s.line) ∧ s.span = span := by
  unfold enclosing?
  rw [List.takeWhile_map, List.getLast?_map, Option.map_eq_some_iff]
  refine exists_congr fun s => and_congr_left fun _ => ?_
  rw [show ((fun x : Span => decide (x.line ≤ line)) ∘ LabelSite.span) = fun s => decide (s.line ≤ line) from rfl,
    getLast?_takeWhile_le LabelSite.line h]

theorem enclosing?_map_span_eq_none {sites : List LabelSite} (h : sites.Pairwise fun s t => s.line < t.line)
    {line : Int} : enclosing? (sites.map LabelSite.span) line = none ↔ ∀ s ∈ sites, line < s.line := by
  unfold enclosing?
  rw [List.takeWhile_map, List.getLast?_map, Option.map_eq_none_iff,
    show ((fun x : Span => decide (x.line ≤ line)) ∘ LabelSite.span) = fun s => decide (s.line ≤ line) from rfl,
    takeWhile_le_eq_filter LabelSite.line line h, List.getLast?_eq_none_iff, List.filter_eq_nil_iff]
  simp

/-! ## Neighbours -/

theorem mem_zip_drop {α : Type} {a b : α} : ∀ {xs : List α}, (a, b) ∈ xs.zip (xs.drop 1) ↔ [a, b] <:+: xs
  | [] => by simp
  | [x] => by
    refine ⟨fun h => by simp at h, fun h => ?_⟩
    have hlength := h.length_le
    simp at hlength
  | x :: y :: xs => by
    have hcons : (x :: y :: xs).zip ((x :: y :: xs).drop 1) = (x, y) :: (y :: xs).zip ((y :: xs).drop 1) := rfl
    have hsplit : [a, b] <:+: x :: y :: xs ↔ [a, b] <+: x :: y :: xs ∨ [a, b] <:+: y :: xs := List.infix_cons_iff
    rw [hcons, List.mem_cons, mem_zip_drop, hsplit]
    refine or_congr_left ?_
    rw [Prod.mk.injEq, List.cons_prefix_cons, List.cons_prefix_cons]
    simp

/-! ## Lines between two lines -/

theorem filter_zipIdx_between {α : Type} (m n : Nat) : ∀ (xs : List α) (first : Nat),
    ((xs.zipIdx first).filter fun l => m < l.2 ∧ l.2 < n).map (·.1) =
      (xs.drop (m + 1 - first)).take (n - max (m + 1) first)
  | [], _ => by simp
  | x :: xs, first => by
    have ih := filter_zipIdx_between m n xs (first + 1)
    rw [List.zipIdx_cons, List.filter_cons]
    by_cases hm : m < first
    · have hzero : m + 1 - first = 0 := by omega
      have hzero' : m + 1 - (first + 1) = 0 := by omega
      rw [hzero, List.drop_zero]
      rw [hzero', List.drop_zero] at ih
      by_cases hn : first < n
      · have hcount : n - max (m + 1) first = n - max (m + 1) (first + 1) + 1 := by omega
        rw [if_pos (by simp [hm, hn]), List.map_cons, ih, hcount, List.take_succ_cons]
      · have hcount : n - max (m + 1) first = 0 := by omega
        have hcount' : n - max (m + 1) (first + 1) = 0 := by omega
        rw [if_neg (by simp [hn]), ih, hcount, hcount', List.take_zero, List.take_zero]
    · have hdrop : m + 1 - first = m + 1 - (first + 1) + 1 := by omega
      have hcount : n - max (m + 1) first = n - max (m + 1) (first + 1) := by omega
      rw [if_neg (by simp [hm]), ih, hdrop, List.drop_succ_cons, hcount]

theorem between_natCast {α : Type} (xs : List α) {m n : Nat} (hn : 1 ≤ n) :
    between xs m (n - 1 : Int) = (xs.drop m).take (n - (m + 1)) := by
  have hstart : offsetIn xs.length m = min m xs.length := by
    unfold offsetIn
    rw [if_neg (by omega), Int.toNat_natCast]
  have hstop : offsetIn xs.length (n - 1 : Int) = min (n - 1) xs.length := by
    unfold offsetIn
    rw [if_neg (by omega)]
    congr 1
    omega
  show (xs.drop _).take _ = _
  rw [hstart, hstop]
  by_cases hm : m ≤ xs.length
  · rw [Nat.min_eq_left hm, List.take_eq_take_iff, List.length_drop]
    omega
  · have hnil : xs.drop m = [] := List.drop_eq_nil_of_le (by omega)
    have hnil' : xs.drop (min m xs.length) = [] := List.drop_eq_nil_of_le (by omega)
    rw [hnil, hnil', List.take_nil, List.take_nil]

/-- The lines of a block strictly between two lines. -/
def Block.linesBetween (b : Block) (first last : Int) : List (List Char) :=
  (b.numberedLines.filter fun l => first < l.2 ∧ l.2 < last).map (·.1)

/-- Control runs on from a plain label if nothing between it and the next one ends it. -/
theorem Block.runsOn_span (b : Block) {s t : LabelSite} (hs : s ∈ b.plainLabels) (ht : t ∈ b.plainLabels) :
    runsOn (Text.lines b.content.toList) s.span t.span = !hasTerminal (b.linesBetween s.line t.line) := by
  obtain ⟨m, hm, -⟩ := b.line_of_mem_plainLabels hs
  obtain ⟨n, hn, hpos⟩ := b.line_of_mem_plainLabels ht
  have hbody : between (Text.lines b.content.toList) s.line (t.line - 1) = b.linesBetween s.line t.line := by
    unfold linesBetween numberedLines
    simp only [hm, hn, Int.ofNat_lt]
    rw [between_natCast _ hpos, filter_zipIdx_between]
    congr 1
    omega
  show (!hasTerminal (between _ s.line (t.line - 1))) = _
  rw [hbody]

end Plotline
