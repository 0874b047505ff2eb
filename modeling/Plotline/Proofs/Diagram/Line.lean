import Mathlib.Data.List.Basic
import Plotline.Diagram.Dot

/-!
# Lines of DOT

* `Line`: a line taken apart into the texts in quotes and what stands between them.
* `Line.read?`: takes a line apart; `Line.read?_chars`: a line that is written is read back, `Line.feed_notMem_chars`:
  it is one line.
* `Line.node?`, `Line.edge?`: the node or the edge that a line states.
-/

namespace Plotline.Dot

/-- A line taken apart: the texts in quotes, each behind what stands in front of it, and what follows the last one. -/
structure Line where
  quoted : List (List Char × List Char)
  rest : List Char

namespace Line

/-! ## Reading a line -/

def push (c : Char) (l : Line) : Line :=
  match l.quoted with
  | [] => ⟨[], c :: l.rest⟩
  | (gap, text) :: quoted => ⟨(c :: gap, text) :: quoted, l.rest⟩

/-- The line with one more character at the head of its first text. -/
def enter (c : Char) (l : Line) : Line :=
  match l.quoted with
  | [] => l
  | (gap, text) :: quoted => ⟨(gap, c :: text) :: quoted, l.rest⟩

/-- The character that another one stands for behind a backslash. -/
def meant? (c : Char) : Option Char :=
  if c = '\\' then some '\\' else if c = '"' then some '"' else if c = 'n' then some '\n' else none

/-- Where a reader stands: outside quotes, in a quoted text, or in one behind a backslash. -/
inductive Place where
  | outside
  | inside
  | behindBackslash

/-- Reads what follows in a line. A text must be closed, a backslash in it followed by a character that it gives a
meaning, and a line feed does not stand in it. -/
def read? : Place → List Char → Option Line
  | .outside, [] => some ⟨[], []⟩
  | .inside, [] => none
  | .behindBackslash, [] => none
  | .outside, c :: s => if c = '"' then read? .inside s else (read? .outside s).map (push c)
  | .inside, c :: s =>
    if c = '"' then (read? .outside s).map fun l => ⟨([], []) :: l.quoted, l.rest⟩
    else if c = '\\' then read? .behindBackslash s
    else if c = '\n' then none
    else (read? .inside s).map (enter c)
  | .behindBackslash, c :: s => (meant? c).bind fun x => (read? .inside s).map (enter x)

def chars (l : Line) : List Char :=
  (l.quoted.flatMap fun q => q.1 ++ '"' :: (q.2.flatMap spelt ++ ['"'])) ++ l.rest

theorem chars_cons (gap text rest : List Char) (quoted : List (List Char × List Char)) :
    chars ⟨(gap, text) :: quoted, rest⟩ = gap ++ '"' :: (text.flatMap spelt ++ '"' :: chars ⟨quoted, rest⟩) := by
  simp [chars]

def outside (l : Line) : List Char := l.quoted.flatMap (·.1) ++ l.rest

theorem outside_cons (gap text rest : List Char) (quoted : List (List Char × List Char)) :
    outside ⟨(gap, text) :: quoted, rest⟩ = gap ++ outside ⟨quoted, rest⟩ := by
  simp [outside]

theorem read?_spelt (c : Char) (s : List Char) : read? .inside (spelt c ++ s) = (read? .inside s).map (enter c) := by
  unfold spelt
  split
  · subst c
    rfl
  · split
    · subst c
      rfl
    · split
      · subst c
        rfl
      · rename_i hbackslash hquote hfeed
        rw [List.singleton_append, read?, if_neg hquote, if_neg hbackslash, if_neg hfeed]

theorem feed_notMem_spelt (c : Char) : '\n' ∉ spelt c := by
  unfold spelt
  split
  · decide
  · split
    · decide
    · split
      · decide
      · simp [eq_comm, *]

-- By induction on the text: what one character is spelt as is read as one.
theorem read?_text (t s : List Char) : read? .inside (t.flatMap spelt ++ '"' :: s) =
    (read? .outside s).map fun l => ⟨([], t) :: l.quoted, l.rest⟩ := by
  induction t with
  | nil => rfl
  | cons c t ih =>
      rw [List.flatMap_cons, List.append_assoc, read?_spelt, ih, Option.map_map]
      rfl

theorem read?_gap {g : List Char} (hg : '"' ∉ g) (s : List Char) :
    read? .outside (g ++ s) = (read? .outside s).map fun l => g.foldr push l := by
  induction g with
  | nil => simp
  | cons c g ih =>
      rw [List.mem_cons, not_or] at hg
      rw [List.cons_append, read?, if_neg (Ne.symm hg.1), ih hg.2, Option.map_map]
      rfl

theorem foldr_push_rest (g rest : List Char) : g.foldr push ⟨[], rest⟩ = ⟨[], g ++ rest⟩ := by
  induction g with
  | nil => rfl
  | cons c g ih => rw [List.foldr_cons, ih]; rfl

theorem foldr_push_quoted (g gap text rest : List Char) (quoted : List (List Char × List Char)) :
    g.foldr push ⟨(gap, text) :: quoted, rest⟩ = ⟨(g ++ gap, text) :: quoted, rest⟩ := by
  induction g with
  | nil => rfl
  | cons c g ih => rw [List.foldr_cons, ih]; rfl

/-- A line that is written is read back, if no quote stands outside its texts. -/
theorem read?_chars {rest : List Char} : ∀ {quoted : List (List Char × List Char)}, '"' ∉ outside ⟨quoted, rest⟩ →
    read? .outside (chars ⟨quoted, rest⟩) = some ⟨quoted, rest⟩
  | [], h => by
    have hread := read?_gap h []
    rw [List.append_nil] at hread
    exact hread.trans (congrArg some (foldr_push_rest rest []|>.trans (by rw [List.append_nil])))
  | (gap, text) :: quoted, h => by
    rw [outside_cons, List.mem_append, not_or] at h
    rw [chars_cons, read?_gap h.1, read?, if_pos rfl, read?_text, read?_chars h.2]
    simp [foldr_push_quoted]

theorem feed_notMem_chars {rest : List Char} : ∀ {quoted : List (List Char × List Char)},
    '\n' ∉ outside ⟨quoted, rest⟩ → '\n' ∉ chars ⟨quoted, rest⟩
  | [], h => h
  | (gap, text) :: quoted, h => by
    rw [outside_cons, List.mem_append, not_or] at h
    have htext : '\n' ∉ text.flatMap spelt := by
      rw [List.mem_flatMap]
      rintro ⟨c, -, hc⟩
      exact feed_notMem_spelt c hc
    rw [chars_cons]
    simp [h.1, htext, feed_notMem_chars h.2]

/-! ## What a line states -/

/-- The name that a text is given by `name=` in front of it. -/
def name? (gap : List Char) : Option (List Char) :=
  match gap.reverse with
  | '=' :: r => some (r.takeWhile Char.isAlpha).reverse
  | _ => none

def attributes (l : Line) : List (List Char × List Char) :=
  l.quoted.filterMap fun q => (name? q.1).map fun k => (k, q.2)

def labels (l : Line) : List (List Char) := (l.attributes.filter (·.1 = "label".toList)).map (·.2)

/-- Outside quotes, a semicolon stands at the end of the line and nowhere else. -/
def isStatement (l : Line) : Bool := l.outside.getLast? = some ';' && !l.outside.dropLast.contains ';'

def node? (l : Line) : Option (String × String) :=
  match l.isStatement, l.quoted, l.labels with
  | true, ([' ', ' '], id) :: (' ' :: '[' :: _, _) :: _, [label] => some (String.ofList id, String.ofList label)
  | _, _, _ => none

/-- The ends and the label in a line that states one edge. A label that is not given is empty. -/
def edge? (l : Line) : Option (String × String × String) :=
  match l.isStatement, l.quoted, l.labels with
  | true, ([' ', ' '], a) :: ([' ', '-', '>', ' '], b) :: _, [label] =>
    some (String.ofList a, String.ofList b, String.ofList label)
  | true, ([' ', ' '], a) :: ([' ', '-', '>', ' '], b) :: _, [] => some (String.ofList a, String.ofList b, "")
  | _, _, _ => none

theorem isStatement_of_outside {l : Line} {front : List Char} (h : l.outside = front ++ [';']) (hfront : ';' ∉ front) :
    l.isStatement = true := by
  simp [isStatement, h, hfront]

end Line

end Plotline.Dot
