import Plotline.Yaml.Fault

/-!
# Places in a YAML text

* `isSpace`, `isBreak`, `endsWord`: what separates words and lines.
* `Cursor`: a place in a text with what follows it.
* `isMarker`: the marks for the bounds of a document.
-/

namespace Plotline.Yaml

def isSpace (c : Char) : Bool := c = ' '

def isBlank (c : Char) : Bool := c = ' ' || c = '\t'

/-- The end of a line: a line feed, the next-line character, or one of the two separators. -/
def isBreak (c : Char) : Bool := c = '\n' || c.toNat = 0x85 || c.toNat = 0x2028 || c.toNat = 0x2029

/-- A line end in the text of a scalar: the next-line character counts as a line feed. -/
def lineEnd (c : Char) : Char := if c.toNat = 0x85 then '\n' else c

/-- Whether a line is over before this character. -/
def endsLine : Option Char → Bool
  | none => true
  | some c => isBreak c

/-- Whether a part is over before this character: a space, a line end, or the end of the text. -/
def endsPart : Option Char → Bool
  | none => true
  | some c => isSpace c || isBreak c

/-- Whether a word is over before this character: a blank, a line end, or the end of the text. -/
def endsWord : Option Char → Bool
  | none => true
  | some c => isBlank c || isBreak c

/-- The byte order mark, which takes no column. -/
def byteOrderMark : Char := '\uFEFF'

/-- How far into a text a place is, counted in characters, lines, and columns of the line. -/
structure Position where
  index : Nat := 0
  line : Nat := 0
  column : Nat := 0
deriving DecidableEq, Repr

/-- The position behind a character. Only a line feed begins a new line of the count. -/
def Position.next (p : Position) (c : Char) : Position :=
  if c = '\n' then ⟨p.index + 1, p.line + 1, 0⟩
  else if c = byteOrderMark then { p with index := p.index + 1 }
  else { p with index := p.index + 1, column := p.column + 1 }

/-- A place in a text with what follows it. -/
structure Cursor where
  rest : List Char
  position : Position := {}

namespace Cursor

def head? (c : Cursor) : Option Char := c.rest.head?

def ahead? (c : Cursor) (n : Nat) : Option Char := c.rest[n]?

def column (c : Cursor) : Nat := c.position.column

/-- The place behind the next character. -/
def skip (c : Cursor) : Cursor :=
  match c.rest with
  | [] => c
  | x :: r => ⟨r, c.position.next x⟩

/-- The place behind the next `n` characters. -/
def skipN : (n : Nat) → Cursor → Cursor
  | 0, c => c
  | n + 1, c => skipN n c.skip

/-- The characters that satisfy `p` up to the first that does not, and the place behind them. -/
def span (p : Char → Bool) (c : Cursor) : List Char × Cursor :=
  let taken := c.rest.takeWhile p
  (taken, c.skipN taken.length)

/-- The place behind the characters that satisfy `p`. -/
def skipWhile (p : Char → Bool) (c : Cursor) : Cursor := (c.span p).2

/-- The place at the end of the line, if nothing but spaces and a comment comes before it. -/
def lineRest? (c : Cursor) : Option Cursor :=
  let c := c.skipWhile isSpace
  let c := if c.head? = some '#' then c.skipWhile (!isBreak ·) else c
  if endsLine c.head? then some c else none

end Cursor

/-- Whether a text begins with three characters `x` and nothing else in the word. -/
def isMarker (x : Char) (s : List Char) : Bool := s.take 3 == [x, x, x] && endsWord s[3]?

/-- Whether a text begins with either mark for the bounds of a document. -/
def isAnyMarker (s : List Char) : Bool := isMarker '-' s || isMarker '.' s

end Plotline.Yaml
