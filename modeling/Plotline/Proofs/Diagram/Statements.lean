import Plotline.Proofs.Diagram.Line

/-!
# Statements in DOT

* `node?`, `edge?`: the node or the edge that a line states, read off its characters.
* `nodeForm`, `edgeForm`: the lines of a diagram, taken apart; `node?_nodeLine`, `edge?_edgeLine`: what is read off
  them.
* `HexColors`: the colours of the edges are hexadecimal numbers; `dot_read_back`: then a diagram is read back.
-/

namespace Plotline.Dot

def node? (line : List Char) : Option (String × String) := (Line.read? .outside line).bind Line.node?

def edge? (line : List Char) : Option (String × String × String) := (Line.read? .outside line).bind Line.edge?

/-! ## Writing a line -/

def replaced (c : Char) (t s : List Char) : List Char := s.flatMap fun x => if x = c then t else [x]

/-- Escaping is three replacements, of backslashes first: the later ones write backslashes of their own. -/
theorem escaped_eq (s : String) :
    escaped s = replaced '\n' ['\\', 'n'] (replaced '"' ['\\', '"'] (replaced '\\' ['\\', '\\'] s.toList)) := by
  unfold escaped replaced
  rw [List.flatMap_assoc, List.flatMap_assoc]
  congr 1
  funext c
  unfold spelt
  split
  · subst c
    rfl
  · split
    · subst c
      rfl
    · split
      · subst c
        rfl
      · rename_i hquote hfeed
        simp [hquote, hfeed]

theorem toList_quote (s : String) : (quote s).toList = '"' :: (s.toList.flatMap spelt ++ ['"']) := by
  rw [quote, String.toList_ofList]
  rfl

theorem intercalate_blank_cons (t : List Char) : ∀ ts : List (List Char),
    [' '].intercalate (t :: ts) = t ++ ts.flatMap (' ' :: ·)
  | [] => by simp
  | u :: us => by
    rw [List.intercalate_cons_cons, intercalate_blank_cons u us, List.flatMap_cons]
    simp

/-! ## Statements -/

def named (front : List Char) (k : String) : List Char := front ++ (k.toList ++ ['='])

/-- An attribute whose value is a quoted text, taken apart. -/
def field (a : String × String) : List Char × List Char := (named [' '] a.1, a.2.toList)

/-- A statement about its ends, taken apart. The first of its attributes with quoted texts stands behind `front`. -/
def statement (ends : List (List Char × List Char)) (front : List Char) : List (String × String) → Line
  | [] => ⟨ends, [';']⟩
  | a :: as => ⟨ends ++ (named front a.1, a.2.toList) :: as.map field, [']', ';']⟩

def IsName (k : String) : Prop := ∀ c ∈ k.toList, c.isAlpha = true

instance (k : String) : Decidable (IsName k) := List.decidableBAll _ _

/-- A text without a character that would open a text, end a statement or end a line. -/
def Clean (s : List Char) : Prop := ∀ c ∈ s, c ≠ '"' ∧ c ≠ ';' ∧ c ≠ '\n'

instance (s : List Char) : Decidable (Clean s) := List.decidableBAll _ _

theorem clean_append {s t : List Char} : Clean (s ++ t) ↔ Clean s ∧ Clean t := List.forall_mem_append

theorem IsName.clean {k : String} (h : IsName k) : Clean k.toList := by
  intro c hc
  have halpha := h c hc
  refine ⟨?_, ?_, ?_⟩ <;> rintro rfl <;> exact absurd halpha (by decide)

theorem clean_named {front : List Char} (hfront : Clean front) {k : String} (hk : IsName k) : Clean (named front k) :=
  clean_append.2 ⟨hfront, clean_append.2 ⟨hk.clean, by decide⟩⟩

theorem name?_named {k : String} (hk : IsName k) (front : List Char) {c : Char} (hc : c.isAlpha = false) :
    Line.name? (named (front ++ [c]) k) = some k.toList := by
  have hreverse : (named (front ++ [c]) k).reverse = '=' :: (k.toList.reverse ++ c :: front.reverse) := by simp [named]
  have htake : (k.toList.reverse ++ c :: front.reverse).takeWhile Char.isAlpha = k.toList.reverse := by
    rw [List.takeWhile_append_of_pos fun x hx => hk x (List.mem_reverse.1 hx),
      List.takeWhile_cons_of_neg (by simp [hc]),
      List.append_nil]
  rw [Line.name?, hreverse]
  simp [htake]

section Statement
variable {ends : List (List Char × List Char)} {as : List (String × String)}

theorem attributes_fields (has : ∀ a ∈ as, IsName a.1) (rest : List Char) :
    Line.attributes ⟨as.map field, rest⟩ = as.map fun a => (a.1.toList, a.2.toList) := by
  rw [Line.attributes, List.filterMap_map, ← List.filterMap_eq_map]
  refine List.filterMap_congr fun a ha => ?_
  have hname : Line.name? (named [' '] a.1) = some a.1.toList := name?_named (has a ha) [] (by decide)
  simp [field, hname]

theorem attributes_statement (hends : ∀ q ∈ ends, Line.name? q.1 = none) (front : List Char) {c : Char}
    (hc : c.isAlpha = false) (has : ∀ a ∈ as, IsName a.1) :
    (statement ends (front ++ [c]) as).attributes = as.map fun a => (a.1.toList, a.2.toList) := by
  have hnone : ends.filterMap (fun q => (Line.name? q.1).map fun k => (k, q.2)) = [] := by
    rw [List.filterMap_eq_nil_iff]
    intro q hq
    rw [hends q hq, Option.map_none]
  -- only the first attribute stands behind `front`, the others behind a blank
  cases as with
  | nil => exact hnone
  | cons a as =>
      obtain ⟨ha, has⟩ := List.forall_mem_cons.1 has
      have hrest := attributes_fields has [']', ';']
      rw [Line.attributes] at hrest
      rw [statement, Line.attributes, List.filterMap_append, hnone, List.nil_append, List.filterMap_cons, hrest]
      simp [name?_named ha front hc]

/-- Outside quotes, a statement holds nothing that would open a text, and it ends where its line does. -/
theorem exists_outside_statement (hends : ∀ q ∈ ends, Clean q.1) {front : List Char} (hfront : Clean front)
    (has : ∀ a ∈ as, IsName a.1) :
    ∃ out, (statement ends front as).outside = out ++ [';'] ∧ Clean out := by
  have hgaps : Clean (ends.flatMap (·.1)) := List.forall_mem_flatMap.2 hends
  cases as with
  | nil => exact ⟨_, rfl, hgaps⟩
  | cons a as =>
      obtain ⟨ha, has⟩ := List.forall_mem_cons.1 has
      have hfields : Clean ((as.map field).flatMap (·.1)) := by
        rw [List.flatMap_map]
        exact List.forall_mem_flatMap.2 fun a ha => clean_named (by decide) (has a ha)
      refine ⟨ends.flatMap (·.1) ++ (named front a.1 ++ ((as.map field).flatMap (·.1) ++ [']'])), ?_, ?_⟩
      · simp [statement, Line.outside]
      · exact clean_append.2 ⟨hgaps, clean_append.2 ⟨clean_named hfront ha, clean_append.2 ⟨hfields, by decide⟩⟩⟩

end Statement

/-- The line is a statement, and it is read back. -/
structure IsRead (l : Line) : Prop where
  read : Line.read? .outside l.chars = some l
  feed : '\n' ∉ l.chars
  isStatement : l.isStatement = true

theorem isRead_of_outside {l : Line} {out : List Char} (h : l.outside = out ++ [';']) (hout : Clean out) :
    IsRead l where
  read := by
    apply Line.read?_chars
    rw [h, List.mem_append, not_or]
    exact ⟨fun hmem => (hout _ hmem).1 rfl, by decide⟩
  feed := by
    apply Line.feed_notMem_chars
    rw [h, List.mem_append, not_or]
    exact ⟨fun hmem => (hout _ hmem).2.2 rfl, by decide⟩
  isStatement := Line.isStatement_of_outside h fun hmem => (hout _ hmem).2.1 rfl

theorem toList_bracketed (k v : String) (as : List (String × String)) :
    (bracketed ((k, v) :: as.map fun a => (a.1, quote a.2))).toList =
      '[' :: (k.toList ++ '=' :: (v.toList ++ Line.chars ⟨as.map field, [']']⟩)) := by
  have hfields : (as.map fun a => a.1.toList ++ '=' :: (quote a.2).toList).flatMap (' ' :: ·) ++ [']'] =
      Line.chars ⟨as.map field, [']']⟩ := by
    rw [Line.chars, List.flatMap_map, List.flatMap_map]
    congr 2
    funext a
    simp [toList_quote, field, named]
  rw [← hfields]
  simp [bracketed, String.toList_intercalate, Function.comp_def, intercalate_blank_cons]

/-! ## Nodes -/

def outline (n : DiagramNode) : String :=
  if n.isStart then "doubleoctagon" else if n.isEnding then "octagon" else "box"

def nodeTexts (n : DiagramNode) : List (String × String) :=
  ("fillcolor", if n.isStart then "#90EE90" else if n.isEnding then "#FFB6C1" else "#D3D3D3") ::
    ((if n.isBranching then [("color", "#FF4500"), ("penwidth", "2.5")] else []) ++ [("label", n.label)])

def nodeForm (n : DiagramNode) : Line :=
  statement [([' ', ' '], n.id.toList)] (" [shape=".toList ++ (outline n).toList ++ [' ']) (nodeTexts n)

theorem nodeAttributes_eq (n : DiagramNode) : shape n ++ border n ++ [("label", quote n.label)] =
    ("shape", outline n) :: (nodeTexts n).map fun a => (a.1, quote a.2) := by
  obtain ⟨id, label, _ | _, _ | _, _ | _⟩ := n <;> rfl

theorem toList_nodeLine (n : DiagramNode) : (nodeLine n).toList = (nodeForm n).chars := by
  rw [nodeLine, nodeAttributes_eq, String.toList_append, String.toList_append, toList_bracketed]
  simp [nodeForm, nodeTexts, statement, toList_quote, Line.chars, field, named]

theorem isName_nodeTexts (n : DiagramNode) : ∀ a ∈ nodeTexts n, IsName a.1 := by
  have hnames : ∀ k ∈ (nodeTexts n).map (·.1), IsName k := by
    obtain ⟨id, label, isStart, isEnding, _ | _⟩ := n
    · show ∀ k ∈ ["fillcolor", "label"], IsName k
      decide
    · show ∀ k ∈ ["fillcolor", "color", "penwidth", "label"], IsName k
      decide
  exact fun a ha => hnames a.1 (List.mem_map_of_mem ha)

theorem isRead_nodeForm (n : DiagramNode) : IsRead (nodeForm n) := by
  have hname : IsName (outline n) := by
    unfold outline
    split
    · decide
    · split <;> decide
  have hfront : Clean (" [shape=".toList ++ (outline n).toList ++ [' ']) :=
    clean_append.2 ⟨clean_append.2 ⟨by decide, hname.clean⟩, by decide⟩
  have hends : ∀ q ∈ [([' ', ' '], n.id.toList)], Clean q.1 := by simp [Clean]
  obtain ⟨out, hout, hclean⟩ := exists_outside_statement hends hfront (isName_nodeTexts n)
  exact isRead_of_outside hout hclean

theorem labels_nodeForm (n : DiagramNode) : (nodeForm n).labels = [n.label.toList] := by
  have hends : ∀ q ∈ [([' ', ' '], n.id.toList)], Line.name? q.1 = none := by simp [Line.name?]
  have hattributes := attributes_statement hends (" [shape=".toList ++ (outline n).toList)
    (show ' '.isAlpha = false by decide) (isName_nodeTexts n)
  rw [Line.labels, nodeForm, hattributes]
  obtain ⟨id, label, isStart, isEnding, _ | _⟩ := n <;> simp [nodeTexts]

theorem node?_nodeLine (n : DiagramNode) : node? (nodeLine n).toList = some (n.id, n.label) := by
  have h := isRead_nodeForm n
  rw [node?, toList_nodeLine, h.read, Option.bind_some, Line.node?, h.isStatement, labels_nodeForm]
  simp [nodeForm, nodeTexts, statement, named]

/-! ## Edges -/

def IsHexColor (c : String) : Prop := ∃ digits, c.toList = '#' :: digits ∧ ∀ x ∈ digits, x.isHexDigit = true

theorem IsHexColor.escaped_eq {c : String} (h : IsHexColor c) : escaped c = c.toList := by
  obtain ⟨digits, hc, hdigits⟩ := h
  have hspelt : ∀ x ∈ digits, spelt x = [x] := by
    intro x hx
    have hdigit := hdigits x hx
    unfold spelt
    split
    · subst x
      cases hdigit
    · split
      · subst x
        cases hdigit
      · split
        · subst x
          cases hdigit
        · rfl
  rw [escaped, hc, List.flatMap_cons, List.flatMap_congr hspelt]
  simp [spelt]

theorem IsHexColor.quote_eq {c : String} (h : IsHexColor c) : "\"" ++ c ++ "\"" = quote c := by
  apply String.toList_inj.1
  rw [quote, h.escaped_eq]
  simp

theorem IsHexColor.isEmpty_eq {c : String} (h : IsHexColor c) : c.isEmpty = false := by
  obtain ⟨digits, hc, -⟩ := h
  rw [Bool.eq_false_iff, ne_eq, String.isEmpty_iff]
  rintro rfl
  cases hc

/-- The colour of an edge, and the width of a line in a colour of its own. -/
def strokeTexts (e : DiagramEdge) : List (String × String) :=
  match e.color, e.isImplicit with
  | some c, _ => [("color", c), ("penwidth", "2")]
  | none, true => [("color", "#808080")]
  | none, false => []

def edgeTexts (e : DiagramEdge) : List (String × String) :=
  (if e.label.isEmpty then [] else [("label", e.label)]) ++ (if e.isImplicit then [("style", "dashed")] else []) ++
    strokeTexts e

def edgeForm (e : DiagramEdge) : Line :=
  statement [([' ', ' '], e.source.toList), ([' ', '-', '>', ' '], e.target.toList)] [' ', '['] (edgeTexts e)

theorem isName_edgeTexts (e : DiagramEdge) : ∀ a ∈ edgeTexts e, IsName a.1 := by
  have hnames : ∀ k ∈ (edgeTexts e).map (·.1), k ∈ ["label", "style", "color", "penwidth"] := by
    obtain ⟨source, target, label, _ | _, _ | c⟩ := e <;> cases hlabel : label.isEmpty <;>
      simp [edgeTexts, strokeTexts, hlabel]
  have hall : ∀ k ∈ ["label", "style", "color", "penwidth"], IsName k := by decide
  exact fun a ha => hall _ (hnames a.1 (List.mem_map_of_mem ha))

section Edge
variable {e : DiagramEdge} (he : ∀ c, e.color = some c → IsHexColor c)
include he

theorem stroke_eq : stroke e = (strokeTexts e).map fun a => (a.1, quote a.2) := by
  obtain ⟨source, target, label, isImplicit, _ | c⟩ := e
  · cases isImplicit <;> rfl
  · have hc := he c rfl
    have hfilter : (some c).filter (!·.isEmpty) = some c := by simp [hc.isEmpty_eq]
    unfold stroke strokeTexts
    rw [hfilter]
    simp [hc.quote_eq]

theorem edgeAttributes_eq : edgeAttributes true e = (edgeTexts e).map fun a => (a.1, quote a.2) := by
  rw [edgeAttributes, edgeTexts, stroke_eq he, List.map_append, List.map_append]
  congr 2
  · cases e.label.isEmpty <;> rfl
  · cases e.isImplicit <;> rfl

theorem toList_edgeLine : (edgeLine true e).toList = (edgeForm e).chars := by
  rw [edgeLine, edgeAttributes_eq he, edgeForm]
  cases edgeTexts e with
  | nil => simp [statement, toList_quote, Line.chars]
  | cons a as =>
      have hbracketed := toList_bracketed a.1 (quote a.2) as
      simp only [List.map_cons, List.isEmpty_cons, Bool.false_eq_true, if_false, String.toList_append, hbracketed]
      simp [statement, toList_quote, Line.chars, named]

end Edge

theorem isRead_edgeForm (e : DiagramEdge) : IsRead (edgeForm e) := by
  have hends : ∀ q ∈ [([' ', ' '], e.source.toList), ([' ', '-', '>', ' '], e.target.toList)], Clean q.1 := by
    simp [Clean]
  obtain ⟨out, hout, hclean⟩ := exists_outside_statement hends (show Clean [' ', '['] by decide) (isName_edgeTexts e)
  exact isRead_of_outside hout hclean

theorem labels_edgeForm (e : DiagramEdge) : (edgeForm e).labels = if e.label = "" then [] else [e.label.toList] := by
  have hends : ∀ q ∈ [([' ', ' '], e.source.toList), ([' ', '-', '>', ' '], e.target.toList)],
      Line.name? q.1 = none := by simp [Line.name?]
  have hattributes := attributes_statement hends [' '] (show '['.isAlpha = false by decide) (isName_edgeTexts e)
  rw [Line.labels, edgeForm, show [' ', '['] = [' '] ++ ['['] from rfl, hattributes]
  obtain ⟨source, target, label, _ | _, _ | c⟩ := e <;> by_cases hlabel : label = "" <;>
    simp [edgeTexts, strokeTexts, hlabel]

theorem edge?_edgeLine {e : DiagramEdge} (he : ∀ c, e.color = some c → IsHexColor c) :
    edge? (edgeLine true e).toList = some (e.source, e.target, e.label) := by
  have h := isRead_edgeForm e
  have hends : ∃ quoted, (edgeForm e).quoted =
      ([' ', ' '], e.source.toList) :: ([' ', '-', '>', ' '], e.target.toList) :: quoted := by
    rw [edgeForm]
    cases edgeTexts e <;> exact ⟨_, rfl⟩
  obtain ⟨quoted, hquoted⟩ := hends
  rw [edge?, toList_edgeLine he, h.read, Option.bind_some, Line.edge?, h.isStatement, labels_edgeForm, hquoted]
  by_cases hlabel : e.label = ""
  · simp [hlabel]
  · simp [hlabel]

/-! ## Diagrams -/

/-- Edges without a colour, or with a hexadecimal one. -/
def HexColors (d : Diagram) : Prop := ∀ e ∈ d.edges, ∀ c, e.color = some c → IsHexColor c

section Diagrams
variable {d : Diagram} (h : HexColors d)
include h

theorem feed_notMem_dotLines : ∀ l ∈ (d.dotLines true).map String.toList, '\n' ∉ l := by
  rw [List.forall_mem_map]
  intro l hl
  simp only [Diagram.dotLines, List.mem_append, List.mem_map, List.mem_singleton] at hl
  obtain (((hl | ⟨n, -, rfl⟩) | rfl) | ⟨e, he, rfl⟩) | rfl := hl
  · have hheading : ∀ l ∈ heading, '\n' ∉ l.toList := by decide
    exact hheading l hl
  · rw [toList_nodeLine]
    exact (isRead_nodeForm n).feed
  · decide
  · rw [toList_edgeLine (h e he)]
    exact (isRead_edgeForm e).feed
  · decide

theorem splitOn_dot : (d.dot true).toList.splitOn '\n' = (d.dotLines true).map String.toList := by
  rw [Diagram.dot, String.toList_intercalate]
  exact List.splitOn_intercalate '\n' (feed_notMem_dotLines h) (by simp [Diagram.dotLines])

end Diagrams

/-- What is read off the lines of a diagram. -/
structure Reads (d : Diagram) (nodeLines edgeLines : List (List Char)) : Prop where
  lines : (d.dot true).toList.splitOn '\n' = heading.map String.toList ++ nodeLines ++ [[]] ++ edgeLines ++ [['\x7d']]
  nodes : nodeLines.map node? = d.nodes.map fun n => some (n.id, n.label)
  edges : edgeLines.map edge? = d.edges.map fun e => some (e.source, e.target, e.label)

theorem exists_reads {d : Diagram} (h : HexColors d) : ∃ nodeLines edgeLines, Reads d nodeLines edgeLines := by
  refine ⟨d.nodes.map fun n => (nodeLine n).toList, d.edges.map fun e => (edgeLine true e).toList, ?_, ?_, ?_⟩
  · rw [splitOn_dot h]
    simp [Diagram.dotLines, Function.comp_def]
  · simp only [List.map_map, Function.comp_def, node?_nodeLine]
  · rw [List.map_map]
    refine List.map_congr_left fun e he => ?_
    rw [Function.comp_apply]
    exact edge?_edgeLine (h e he)

namespace Reads
variable {d d' : Diagram} {nodeLines edgeLines nodeLines' edgeLines' : List (List Char)}

theorem nil_notMem_nodeLines (h : Reads d nodeLines edgeLines) : [] ∉ nodeLines := by
  intro hmem
  have hnone : node? [] ∈ nodeLines.map node? := List.mem_map_of_mem hmem
  rw [h.nodes] at hnone
  obtain ⟨n, -, hn⟩ := List.mem_map.1 hnone
  cases hn

theorem nil_notMem_edgeLines (h : Reads d nodeLines edgeLines) : [] ∉ edgeLines := by
  intro hmem
  have hnone : edge? [] ∈ edgeLines.map edge? := List.mem_map_of_mem hmem
  rw [h.edges] at hnone
  obtain ⟨e, -, he⟩ := List.mem_map.1 hnone
  cases he

theorem unique (h : Reads d nodeLines edgeLines) (h' : Reads d' nodeLines' edgeLines')
    (htext : d'.dot true = d.dot true) : nodeLines' = nodeLines ∧ edgeLines' = edgeLines := by
  have hlines := h'.lines
  rw [htext, h.lines] at hlines
  simp only [List.append_assoc, List.append_cancel_left_eq, List.singleton_append] at hlines
  -- behind the heading, the only empty line is the one between nodes and edges
  have hrest : [] ∉ edgeLines ++ [['\x7d']] := by simp [h.nil_notMem_edgeLines]
  obtain ⟨hnodes, -, hedges⟩ := (List.append_cons_inj_of_notMem h.nil_notMem_nodeLines hrest).1 hlines
  exact ⟨hnodes.symm, (List.append_cancel_right hedges).symm⟩

theorem statements_eq (h : Reads d nodeLines edgeLines) (h' : Reads d' nodeLines' edgeLines')
    (htext : d'.dot true = d.dot true) :
    (d'.nodes.map fun n => (n.id, n.label)) = (d.nodes.map fun n => (n.id, n.label)) ∧
      (d'.edges.map fun e => (e.source, e.target, e.label)) =
        (d.edges.map fun e => (e.source, e.target, e.label)) := by
  obtain ⟨rfl, rfl⟩ := h.unique h' htext
  constructor
  · apply List.map_injective_iff.2 fun _ _ => Option.some.inj
    rw [List.map_map, List.map_map]
    exact h'.nodes.symm.trans h.nodes
  · apply List.map_injective_iff.2 fun _ _ => Option.some.inj
    rw [List.map_map, List.map_map]
    exact h'.edges.symm.trans h.edges

end Reads

/-- Whatever stands in its ids and labels, a diagram has a line for each node and each edge, and its nodes and edges are
read back from them. Two diagrams with the same text have the same ones. -/
theorem dot_read_back {d : Diagram} (h : HexColors d) :
    heading.length = 5 ∧ (∃ nodeLines edgeLines, Reads d nodeLines edgeLines) ∧
      ∀ d', HexColors d' → d'.dot true = d.dot true →
        (d'.nodes.map fun n => (n.id, n.label)) = (d.nodes.map fun n => (n.id, n.label)) ∧
          (d'.edges.map fun e => (e.source, e.target, e.label)) =
            (d.edges.map fun e => (e.source, e.target, e.label)) := by
  obtain ⟨nodeLines, edgeLines, hreads⟩ := exists_reads h
  refine ⟨rfl, ⟨nodeLines, edgeLines, hreads⟩, fun d' h' htext => ?_⟩
  obtain ⟨nodeLines', edgeLines', hreads'⟩ := exists_reads h'
  exact hreads.statements_eq hreads' htext

/-- Texts that would end their quotes and add a node, and one that ends behind a backslash. -/
def hostile : Diagram where
  nodes := [{ id := "a\"];\n  \"b", label := "\\\"", isStart := true },
    { id := "c\\", label := "", isBranching := true }]
  edges := [{ source := "c\\", target := "a\"];\n  \"b", label := "\\n\n", color := some "#E57373" },
    { source := "c\\", target := "c\\", isImplicit := true }]

/-- Its first node is an ending too, which does not show: a start goes before an ending. -/
def hostile' : Diagram :=
  { hostile with
    nodes := [{ id := "a\"];\n  \"b", label := "\\\"", isStart := true, isEnding := true },
      { id := "c\\", label := "", isBranching := true }] }

theorem hexColors_hostile : HexColors hostile := by
  intro e he c hc
  obtain rfl | rfl : e = _ ∨ e = _ := by simpa [hostile] using he
  · obtain rfl : "#E57373" = c := by simpa using hc
    exact ⟨"E57373".toList, rfl, List.all_eq_true.1 (by decide)⟩
  · cases hc

theorem dot_read_back_hostile :
    HexColors hostile ∧ HexColors hostile' ∧ hostile'.dot true = hostile.dot true ∧
      (∃ nodeLines edgeLines, Reads hostile nodeLines edgeLines) ∧
      (hostile'.nodes.map fun n => (n.id, n.label)) = (hostile.nodes.map fun n => (n.id, n.label)) :=
  have h' : HexColors hostile' := hexColors_hostile
  have htext : hostile'.dot true = hostile.dot true := by decide +kernel
  have hread := dot_read_back hexColors_hostile
  ⟨hexColors_hostile, h', htext, hread.2.1, (hread.2.2 hostile' h' htext).1⟩

end Plotline.Dot
