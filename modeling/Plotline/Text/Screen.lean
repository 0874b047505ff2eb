import Plotline.Text.Blank
import Plotline.Text.Pieces
import Plotline.Unicode.Width

/-!
# Text on a screen

* `Screen.visible`: a text without the controls that would move the cursor.
* `Screen.expand`: a line with spaces for its tabs.
* `Screen.wrap`: a text in lines of a number of cells; `Overflow` says what becomes of words that are too wide.
* `Screen.shown`: a text as it is shown.
-/

namespace Plotline.Text.Screen

def lineCells : Nat := 200

/-- The bell, the backspace, the vertical tab, the form feed and the carriage return, which are not shown. -/
def isHidden (c : Char) : Bool := [7, 8, 11, 12, 13].contains c.toNat

/-- A text without what is not shown. -/
def visible (s : String) : List Char := s.toList.filter (!isHidden ·)

/-! ## Tabs -/

def tabStop : Nat := 8

/-- The pieces of a line between its tabs, each but the last with spaces up to the next tab stop. -/
def joinPieces (column : Nat) : List (List Char) → List Char
  | [] => []
  | [p] => p
  | p :: ps =>
    let column := column + Unicode.cells (p ++ [' '])
    let gap := (tabStop - column % tabStop) % tabStop
    p ++ ' ' :: List.replicate gap ' ' ++ joinPieces (column + gap) ps

def expand (line : List Char) : List Char := joinPieces 0 (pieces (· = '\t') line)

/-! ## Lines -/

/-- What becomes of a word that is wider than the lines. -/
inductive Overflow where
  /-- It goes on in the next line. -/
  | fold
  /-- It is cut off, with an ellipsis for the rest. -/
  | ellipsis
deriving DecidableEq

def cutBeforeWords : List Char → List (List Char)
  | [] => []
  | c :: r =>
    match r, cutBeforeWords r with
    | d :: _, p :: ps => if isBlank c && !isBlank d then [c] :: p :: ps else (c :: p) :: ps
    | _, _ => [[c]]

/-- The words of a line, each with the blanks behind it; the blanks before the first one belong to that. -/
def blankedWords (line : List Char) : List (List Char) :=
  match cutBeforeWords line with
  | p :: q :: ps => if p.all isBlank then (p ++ q) :: ps else p :: q :: ps
  | ps => ps

/-- Puts words on lines; the first line has begun with `line`, which takes `used` cells. A word goes on the next line
if it does not fit without the blanks behind it. -/
def wrapFrom (o : Overflow) (width : Nat) (line : List Char) (used : Nat) : List (List Char) → List (List Char)
  | [] => [line]
  | w :: ws =>
    let n := Unicode.cells (trimEnd w)
    if used + n ≤ width then wrapFrom o width (line ++ w) (used + Unicode.cells w) ws
    else
      let parts := if o = .fold && width < n then Unicode.chop width w else [w]
      let last := parts.getLastD []
      (if line.isEmpty then [] else [line]) ++ parts.dropLast ++ wrapFrom o width last (Unicode.cells last) ws

/-- A line without those blanks at its end that are more than it has room for. -/
def trimExcess (width : Nat) (line : List Char) : List Char :=
  line.take (line.length - min (line.length - (trimEnd line).length) (line.length - width))

/-- What is shown of a line. -/
def cutOff (o : Overflow) (width : Nat) (line : List Char) : List Char :=
  if Unicode.cells line ≤ width then line
  else match o with
    | .fold => Unicode.clip width (Unicode.clusters line)
    | .ellipsis => Unicode.clip (width - 1) (Unicode.clusters line) ++ ['…']

def wrap (o : Overflow) (width : Nat) (s : String) : List (List Char) :=
  (pieces (· = '\n') (visible s)).flatMap fun line =>
    (wrapFrom o width [] 0 (blankedWords (expand line))).map fun line => cutOff o width (trimExcess width line)

def shown (s : String) : String := String.ofList (['\n'].intercalate (wrap .fold lineCells s))

end Plotline.Text.Screen
