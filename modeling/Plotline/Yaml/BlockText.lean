import Plotline.Yaml.Scalar

/-!
# Block texts

* `BlockHeader`: the indicators behind the bar or arrow of a block text.
* `blockText`: an indented text behind a bar, which keeps its lines, or an arrow, which folds them.
-/

namespace Plotline.Yaml

/-! ## The first line -/

/-- What becomes of the line ends at the end of a block text. -/
inductive Chomping where
  | strip
  | clip
  | keep
deriving DecidableEq, Repr

/-- The first line of a block text: what becomes of the last line ends, and the indentation if it is given. -/
structure BlockHeader where
  chomping : Chomping := .clip
  indentation : Option Nat := none

/-- The sign for the last line ends. -/
def chomping? (c : Option Char) : Option Chomping :=
  if c = some '+' then some .keep else if c = some '-' then some .strip else none

def indentationDigit? (c : Option Char) : Option Nat :=
  c.bind fun d => if d.isDigit && d ≠ '0' then some (d.toNat - 48) else none

/-- The indicators of a block text, of which either may come first, and the place behind them. -/
def indicators (c : Cursor) : BlockHeader × Cursor :=
  match chomping? c.head? with
  | some chomping =>
    match indentationDigit? (c.ahead? 1) with
    | some n => (⟨chomping, some n⟩, c.skipN 2)
    | none => (⟨chomping, none⟩, c.skip)
  | none =>
    match indentationDigit? c.head? with
    | some n =>
      match chomping? (c.ahead? 1) with
      | some chomping => (⟨chomping, some n⟩, c.skipN 2)
      | none => (⟨.clip, some n⟩, c.skip)
    | none => ({}, c)

/-- The first line of a block text, and the place of the line below. -/
def blockHeader (c : Cursor) : Except Fault (BlockHeader × Cursor) :=
  let (header, c) := indicators c
  if !endsPart c.head? then .error .badBlockHeader
  else match c.lineRest? with
    | some c => .ok (header, c.skip)
    | none => .error .badBlockHeader

/-! ## The lines below -/

/-- Spaces and line ends before the first line with more than that. -/
structure Lead where
  /-- The line ends, last one first. -/
  breaks : List Char := []
  /-- The column of the first line end. -/
  firstColumn : Option Nat := none
  /-- The largest column behind a space. -/
  widest : Nat := 0

/-- Passes spaces and line ends. -/
def leadFrom (lead : Lead) : Position → List Char → Lead × Cursor
  | p, [] => (lead, ⟨[], p⟩)
  | p, c :: r =>
    if isSpace c then leadFrom { lead with widest := max lead.widest (p.next c).column } (p.next c) r
    else if isBreak c then
      leadFrom { lead with breaks := lineEnd c :: lead.breaks, firstColumn := lead.firstColumn.or (some p.column) }
        (p.next c) r
    else (lead, ⟨c :: r, p⟩)

/-- The line ends before the first line with more than spaces, how far that is indented, and its place. A first line of
spaces must not be indented less than a later one. -/
def lead (c : Cursor) : Except Fault (List Char × Nat × Cursor) :=
  let (lead, after) := leadFrom {} c.position c.rest
  match lead.firstColumn with
  | some n => if 0 < n && n < lead.widest then .error .badBlockIndentation else .ok (lead.breaks, lead.widest, after)
  | none => .ok (lead.breaks, lead.widest, after)

/-- Passes empty lines of at most `indent` spaces, and the spaces of the next line up to that column; gives the line
ends, last one first. -/
def emptyLinesFrom (indent : Nat) (breaks : List Char) : Position → List Char → List Char × Cursor
  | p, [] => (breaks, ⟨[], p⟩)
  | p, c :: r =>
    if isSpace c && p.column < indent then emptyLinesFrom indent breaks (p.next c) r
    else if isBreak c then emptyLinesFrom indent (lineEnd c :: breaks) (p.next c) r
    else (breaks, ⟨c :: r, p⟩)

def emptyLines (indent : Nat) (c : Cursor) : List Char × Cursor := emptyLinesFrom indent [] c.position c.rest

/-- A block text of which some lines have been read. -/
structure BlockText where
  /-- The text, last character first. -/
  text : List Char := []
  /-- The end of the last line. -/
  ending : List Char := []
  /-- The ends of the empty lines since, last one first. -/
  empties : List Char := []
  /-- The last line begins with a blank. -/
  blank : Bool := false
  after : Cursor

/-- Adds the line at the place; in folded text a single line end between lines that do not begin with a blank becomes a
space. -/
def BlockText.addLine (literal : Bool) (indent : Nat) (b : BlockText) : BlockText :=
  let blank := b.after.head?.any isBlank
  let folds := !literal && b.ending = ['\n'] && !b.blank && !blank
  let joint := if folds then if b.empties.isEmpty then [' '] else b.empties else b.empties ++ b.ending
  let (line, after) := b.after.span (!isBreak ·)
  let (empties, next) := emptyLines indent after.skip
  { text := line.reverse ++ joint ++ b.text, ending := (after.head?.map lineEnd).toList, empties, blank, after := next }

/-- Adds lines while they begin in the column of the text, at most `n` of them. A text that is not indented ends at a
mark for the bounds of the document. -/
def BlockText.addLines (literal : Bool) (indent : Nat) (flush : Bool) : (n : Nat) → BlockText → BlockText
  | 0, b => b
  | n + 1, b =>
    if b.after.column = indent && b.after.head?.isSome then
      let b := b.addLine literal indent
      if flush && b.after.column = 0 && isAnyMarker b.after.rest then b else addLines literal indent flush n b
    else b

/-- The block text behind its bar or arrow, in a block that is indented by `outer`. -/
def blockText (literal : Bool) (outer : Int) (c : Cursor) : Except Fault Scalar := do
  let (header, c) ← blockHeader c
  let least := (outer + 1).toNat
  let (empties, indent, after) ← match header.indentation with
    | some n => do
      let indent := max least 1 + n - 1
      let (empties, after) := emptyLines indent c
      pure (empties, indent, after)
    | none => do
      let (empties, widest, after) ← lead c
      pure (empties, max least widest, after)
  let flush := least = 0 && header.indentation.isNone
  let b := BlockText.addLines literal indent flush (after.rest.length + 1) { empties, after }
  let tail := match header.chomping with
    | .strip => []
    | .clip => b.ending
    | .keep => b.empties ++ b.ending
  pure ⟨(tail ++ b.text).reverse, false, b.after⟩

end Plotline.Yaml
