import Mathlib.Data.List.Infix
import Plotline.Diagram.Mermaid

/-!
# Labels in Mermaid

* `notMem_escaped`: neither a double quote nor a line feed is left in a label.
* `braces_infix_iff`: two closing braces stand in a label as it is written if and only if they stand in the label.
* `IsHexagon`: the nodes whose labels are closed by two braces; `CutShort`: the closing delimiter stands before its
  place.
* `label_closed_iff`: which labels hold what closes them. A brace is not replaced, so those of hexagons may.
-/

namespace Plotline.Mermaid

/-! ## What is left of a label -/

theorem notMem_spelt {x : Char} (hx : x = '"' ∨ x = '\n') (c : Char) : x ∉ spelt c := by
  unfold spelt
  split
  · rcases hx with rfl | rfl <;> decide
  · split
    · rcases hx with rfl | rfl <;> decide
    · rcases hx with rfl | rfl <;> simp [eq_comm, *]

theorem notMem_escaped {x : Char} (hx : x = '"' ∨ x = '\n') (s : String) : x ∉ (escaped s).toList := by
  rw [escaped, String.toList_ofList, List.mem_flatMap]
  rintro ⟨c, -, hc⟩
  exact notMem_spelt hx c hc

theorem brace_prefix_iff (s : List Char) : ['\x7d'] <+: s.flatMap spelt ↔ ['\x7d'] <+: s := by
  cases s with
  | nil => rfl
  | cons c s =>
      rw [List.flatMap_cons, spelt]
      split
      · subst c
        simp
      · split
        · subst c
          simp
        · simp

/-- No brace comes or goes when a label is written, and none moves next to another. -/
theorem braces_infix_iff : ∀ s : List Char, ['\x7d', '\x7d'] <:+: s.flatMap spelt ↔ ['\x7d', '\x7d'] <:+: s
  | [] => Iff.rfl
  | c :: s => by
    -- neither a character that is replaced nor any that replaces it is a brace
    have hrest := braces_infix_iff s
    rw [List.flatMap_cons, spelt]
    split
    · subst c
      simpa [List.infix_cons_iff] using hrest
    · split
      · subst c
        simpa [List.infix_cons_iff] using hrest
      · rw [List.singleton_append, List.infix_cons_iff, List.infix_cons_iff,
          List.cons_prefix_cons, List.cons_prefix_cons,
          brace_prefix_iff, hrest]

/-! ## Delimiters -/

/-- The node is drawn as a hexagon: it is branching, and neither a start nor an ending. -/
structure IsHexagon (n : DiagramNode) : Prop where
  branching : n.isBranching = true
  start : n.isStart = false
  ending : n.isEnding = false

theorem brackets_of_hexagon {n : DiagramNode} (h : IsHexagon n) : brackets n = ("\x7b\x7b", "\x7d\x7d") := by
  unfold brackets
  rw [h.branching, h.start, h.ending]
  rfl

theorem brackets_of_not_hexagon {n : DiagramNode} (h : ¬ IsHexagon n) : brackets n = ("[\"", "\"]") := by
  unfold brackets
  rw [if_neg]
  intro hflags
  simp only [Bool.and_eq_true, Bool.not_eq_true'] at hflags
  exact h ⟨hflags.2, hflags.1.1, hflags.1.2⟩

/-- What closes a text stands somewhere before the place where it closes. -/
def CutShort (closing text : List Char) : Prop := closing <:+: (text ++ closing).dropLast

/-- A double quote that a text does not hold can only close it. -/
theorem not_cutShort_of_notMem {s : List Char} (h : '"' ∉ s) : ¬ ['"', ']'] <:+: s ∧ ¬ CutShort ['"', ']'] s := by
  have hnone : ¬ ['"', ']'] <:+: s := fun hinside => h (List.IsInfix.subset hinside List.mem_cons_self)
  have hlast : (s ++ ['"', ']']).dropLast = s ++ ['"'] := List.dropLast_append_cons
  refine ⟨hnone, ?_⟩
  rw [CutShort, hlast, List.infix_concat_iff]
  rintro (hsuffix | hinfix)
  · obtain ⟨front, hfront⟩ := hsuffix
    rw [← List.singleton_append, ← List.append_assoc] at hfront
    cases List.append_singleton_inj.1 hfront |>.2
  · exact hnone hinfix

/-- **What closes a label.** The line of a node holds its label between the delimiters of its shape. The label has no
line feed, and it holds the closing delimiter if and only if the node is a hexagon and two closing braces follow each
other in its label. If there are two with one more brace behind the label, the delimiter stands before its place. -/
theorem label_closed_iff (d : Diagram) (labels : Bool) : ∀ n ∈ d.nodes,
    "  " ++ d.mermaidIds.getD n.id "" ++ (brackets n).1 ++ escaped n.label ++ (brackets n).2 ++ style n ∈
        d.mermaidLines labels ∧
      '\n' ∉ (escaped n.label).toList ∧
      ((brackets n).2.toList <:+: (escaped n.label).toList ↔ IsHexagon n ∧ ['\x7d', '\x7d'] <:+: n.label.toList) ∧
      (CutShort (brackets n).2.toList (escaped n.label).toList ↔
        IsHexagon n ∧ ['\x7d', '\x7d'] <:+: n.label.toList ++ ['\x7d']) := by
  intro n hn
  refine ⟨?_, notMem_escaped (Or.inr rfl) _, ?_⟩
  · have hline : "  " ++ d.mermaidIds.getD n.id "" ++ (brackets n).1 ++ escaped n.label ++ (brackets n).2 ++ style n ∈
        nodeLines d.mermaidIds n := List.mem_cons_self
    have hlines := List.mem_flatMap_of_mem hn hline
    simp only [Diagram.mermaidLines, List.mem_append]
    tauto
  · by_cases hhexagon : IsHexagon n
    · have hclosing : (brackets n).2.toList = ['\x7d', '\x7d'] := by rw [brackets_of_hexagon hhexagon]; rfl
      have hlabel : (escaped n.label).toList = n.label.toList.flatMap spelt := by rw [escaped, String.toList_ofList]
      -- without its last brace, the closing delimiter is one brace behind the label
      have hcut : ((escaped n.label).toList ++ ['\x7d', '\x7d']).dropLast =
          (n.label.toList ++ ['\x7d']).flatMap spelt := by
        rw [hlabel, List.flatMap_append, List.dropLast_append_cons]
        rfl
      rw [CutShort, hclosing, hcut, braces_infix_iff, hlabel, braces_infix_iff]
      simp [hhexagon]
    · have hclosing : (brackets n).2.toList = ['"', ']'] := by rw [brackets_of_not_hexagon hhexagon]; rfl
      obtain ⟨hnone, hcut⟩ := not_cutShort_of_notMem (notMem_escaped (Or.inl rfl) n.label)
      rw [hclosing]
      simp [hnone, hcut, hhexagon]

/-- A hexagon whose label has all that is replaced, and its braces apart. -/
def fork : DiagramNode := { id := "hub", label := "a\x7d \"b\"\n\x7d c", isBranching := true }

theorem label_closed_iff_fork : fork ∈ [fork] ∧ '\n' ∉ (escaped fork.label).toList ∧
    ¬ (brackets fork).2.toList <:+: (escaped fork.label).toList ∧
      ¬ CutShort (brackets fork).2.toList (escaped fork.label).toList := by
  have hmem : fork ∈ (Diagram.mk [fork] []).nodes := List.mem_singleton_self _
  obtain ⟨-, hfeed, hclosing, hcut⟩ := label_closed_iff ⟨[fork], []⟩ true fork hmem
  refine ⟨hmem, hfeed, fun h => ?_, fun h => ?_⟩
  · exact absurd (hclosing.1 h).2 (by decide +kernel)
  · exact absurd (hcut.1 h).2 (by decide +kernel)

/-- A hexagon whose label has two closing braces next to each other. -/
def brokenFork : DiagramNode := { id := "hub", label := "a\x7d\x7db", isBranching := true }

theorem braces_close_label : IsHexagon brokenFork ∧
    "  hub\x7b\x7ba\x7d\x7db\x7d\x7d" ∈ (Diagram.mk [brokenFork] []).mermaidLines true ∧
      (brackets brokenFork).2.toList <:+: (escaped brokenFork.label).toList :=
  ⟨⟨rfl, rfl, rfl⟩, by decide +kernel, by decide +kernel⟩

end Plotline.Mermaid
