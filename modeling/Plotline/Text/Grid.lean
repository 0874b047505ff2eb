import Plotline.Number.Arithmetic
import Plotline.Text.Screen

/-!
# Tables in text

* `Grid`: a title, columns with headings, and rows of texts.
* `Grid.shrink`: takes cells from the widest columns until all of them find room.
* `Grid.lines`: the table in box drawing characters, the head in heavy ones.
-/

namespace Plotline.Text

structure Column where
  heading : String
  /-- Its texts stand at the right. -/
  right : Bool := false

structure Grid where
  title : String
  columns : List Column
  rows : List (List String)

namespace Grid

/-! ## Widths -/

/-- The characters that end a line when texts are measured; in the table, only a line feed does. -/
def endsLine (c : Char) : Bool := [0x0A, 0x1C, 0x1D, 0x1E, 0x85, 0x2028, 0x2029].contains c.toNat

/-- The number of cells of the widest line of a text, in which tabs count for nothing. -/
def measure (s : String) : Nat := ((pieces endsLine (Screen.visible s)).map Unicode.cells).foldl max 0

/-- The numbers of cells that columns would like to have, with a blank on either side. -/
def wanted (g : Grid) : List Nat :=
  g.columns.zipIdx.map fun (c, i) => (g.rows.map fun r => measure (r.getD i "")).foldl max (measure c.heading) + 2

/-- A ratio as the nearest whole number; of two that are equally near, the even one. -/
def nearestRatio (n d : Nat) : Nat :=
  let q := n / d
  let r := n % d
  if d < 2 * r || (2 * r = d && q % 2 = 1) then q + 1 else q

/-- Takes `excess` cells in equal parts from the columns that are as wide as the widest, of which `count` are left, but
no more than `most` from each. -/
def reduce (widest most : Nat) : (excess count : Nat) → List Nat → List Nat
  | _, _, [] => []
  | excess, count, w :: ws =>
    if w = widest then
      let n := min most (nearestRatio excess count)
      (w - n) :: reduce widest most (excess - n) (count - 1) ws
    else w :: reduce widest most excess count ws

/-- Takes cells from the widest columns until they are as wide as the next ones, and so on, until all find room. -/
def shrink (room : Nat) : (rounds : Nat) → List Nat → List Nat
  | 0, ws => ws
  | n + 1, ws =>
    let excess := Number.total ws - room
    if excess = 0 then ws
    else
      let widest := ws.foldl max 0
      let next := (ws.filter (· ≠ widest)).foldl max 0
      shrink room n (reduce widest (min excess (widest - next)) excess (ws.count widest) ws)

/-- The columns with the numbers of cells for their texts. Each round of shrinking makes another column one of the
widest. -/
def sized (g : Grid) : List (Column × Nat) :=
  let n := g.columns.length
  g.columns.zip ((shrink (Screen.lineCells - (n + 1)) (n + 1) g.wanted).map (· - 2))

/-! ## Lines -/

def blanks (n : Nat) : String := String.ofList (List.replicate n ' ')

/-- A line of a text with blanks up to a number of cells. -/
def fit (c : Column) (width : Nat) (s : List Char) : String :=
  if c.right then
    let s := trimEnd s
    blanks (width - Unicode.cells s) ++ String.ofList s
  else String.ofList s ++ blanks (width - Unicode.cells s)

/-- A rule across the table: its left end, its line, its crossings and its right end. -/
def rule (columns : List (Column × Nat)) (left line cross right : Char) : String :=
  let spans := columns.map fun c => String.ofList (List.replicate (c.2 + 2) line)
  left.toString ++ cross.toString.intercalate spans ++ right.toString

/-- A row of texts between walls, with as many lines as the text with the most of them. -/
def row (columns : List (Column × Nat)) (wall : String) (texts : List String) : List String :=
  let wrapped := (columns.zip texts).map fun (c, s) => (c, Screen.wrap .ellipsis c.2 s)
  let height := (wrapped.map fun x => x.2.length).foldl max 0
  (List.range height).map fun i =>
    wall ++ wall.intercalate (wrapped.map fun (c, ls) => " " ++ fit c.1 c.2 (ls.getD i []) ++ " ") ++ wall

/-- A text in the middle of a number of cells, an odd blank behind it. -/
def centred (width : Nat) (s : String) : String :=
  let gap := width - Unicode.cells s.toList
  blanks (gap / 2) ++ s ++ blanks (gap - gap / 2)

def lines (g : Grid) : List String :=
  let columns := g.sized
  let top := rule columns '┏' '━' '┳' '┓'
  centred (Unicode.cells top.toList) g.title :: top :: row columns "┃" (g.columns.map (·.heading)) ++
    rule columns '┡' '━' '╇' '┩' :: g.rows.flatMap (row columns "│") ++ [rule columns '└' '─' '┴' '┘']

end Grid
end Plotline.Text
