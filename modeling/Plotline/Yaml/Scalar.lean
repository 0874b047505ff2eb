import Plotline.Yaml.Cursor

/-!
# Texts in a YAML text

* `Gap`: blanks and line ends inside a text; `Gap.text` is what they come to.
* `plain`: a text without quotes.
* `singleQuoted`, `doubleQuoted`: a text in quotes.
-/

namespace Plotline.Yaml

inductive Version where
  | v11
  | v12
deriving DecidableEq, Repr

/-! ## Gaps -/

/-- Blanks and line ends inside a text. Blanks around a line end do not count. -/
structure Gap where
  /-- The blanks, last one first. -/
  blanks : List Char := []
  /-- The line ends, last one first. -/
  breaks : List Char := []
  /-- The first line end was escaped and is not among `breaks`. -/
  escaped : Bool := false

namespace Gap

/-- Whether the gap goes beyond its first line. -/
def crosses (g : Gap) : Bool := g.escaped || !g.breaks.isEmpty

def isEmpty (g : Gap) : Bool := !g.crosses && g.blanks.isEmpty

/-- The gap with another blank. -/
def blank (g : Gap) (c : Char) : Gap := if g.crosses then g else { g with blanks := c :: g.blanks }

def lineBreak (g : Gap) (c : Char) : Gap := { g with breaks := lineEnd c :: g.breaks }

/-- Line ends in running text: a single line feed becomes a space, of several the first is dropped. -/
def folded : List Char → List Char
  | [] => []
  | b :: bs => if b ≠ '\n' then b :: bs else if bs.isEmpty then [' '] else bs

/-- What a gap comes to in the text. -/
def text (g : Gap) : List Char :=
  if g.escaped then g.breaks.reverse
  else if g.breaks.isEmpty then g.blanks.reverse
  else folded g.breaks.reverse

end Gap

/-- A text that has been read, and the place behind it. -/
structure Scalar where
  text : List Char
  /-- Line ends were passed behind the last character. -/
  crossed : Bool := false
  after : Cursor

/-! ## Texts without quotes -/

def isFlowSign (c : Char) : Bool := [',', '[', ']', '\x7b', '\x7d'].contains c

/-- Whether a plain text ends before `c`, which is no space and no line end: at a tab, at a colon that ends a key, and
in brackets at a separator, or in the older version at a question mark. -/
def endsRun (version : Version) (flow : Bool) (c : Char) (next : Option Char) : Bool :=
  c = '\t' || (c = ':' && endsWord next) || (flow && (isFlowSign c || (c = '?' && version = .v11)))

/-- Whether a plain text ends behind a gap: at a comment, and outside brackets in a column before `indent`. -/
def endsBehind (flow : Bool) (indent : Int) (column : Nat) (c : Char) : Bool :=
  c = '#' || (!flow && (column : Int) < indent)

/-- Reads on in a plain text; `text` is what has been read, last character first, and `gap` what has been passed
since. A mark for the bounds of the document behind a line end ends the text. -/
def plainFrom (version : Version) (flow : Bool) (indent : Int) :
    Position → (text : List Char) → Gap → List Char → Scalar
  | p, text, gap, [] => ⟨text.reverse, gap.crosses, ⟨[], p⟩⟩
  | p, text, gap, c :: r =>
    if isBreak c then
      let gap := gap.lineBreak c
      if isAnyMarker r then ⟨text.reverse, true, ⟨r, p.next c⟩⟩
      else plainFrom version flow indent (p.next c) text gap r
    else if isSpace c then plainFrom version flow indent (p.next c) text (gap.blank c) r
    else if endsRun version flow c r.head? || (!gap.isEmpty && endsBehind flow indent p.column c) then
      ⟨text.reverse, gap.crosses, ⟨c :: r, p⟩⟩
    else plainFrom version flow indent (p.next c) (c :: gap.text.reverse ++ text) {} r

/-- The plain text at a place whose block is indented by less than `indent`. -/
def plain (version : Version) (flow : Bool) (indent : Int) (c : Cursor) : Scalar :=
  plainFrom version flow indent c.position [] {} c.rest

/-! ## Texts in quotes -/

/-- Reads on in a text in single quotes, of which two stand for one. -/
def singleFrom : Position → (text : List Char) → Gap → List Char → Except Fault Scalar
  | _, _, _, [] => .error .unclosedQuote
  | p, text, gap, c :: r =>
    if isBreak c then
      if isAnyMarker r then .error .markerInQuote else singleFrom (p.next c) text (gap.lineBreak c) r
    else if isBlank c then singleFrom (p.next c) text (gap.blank c) r
    else
      let text := gap.text.reverse ++ text
      if c = '\'' then
        match r with
        | d :: r' =>
          if d = '\'' then singleFrom ((p.next c).next d) (c :: text) {} r'
          else .ok ⟨text.reverse, false, ⟨d :: r', p.next c⟩⟩
        | [] => .ok ⟨text.reverse, false, ⟨[], p.next c⟩⟩
      else singleFrom (p.next c) (c :: text) {} r

/-- The text in single quotes behind its opening quote. -/
def singleQuoted (c : Cursor) : Except Fault Scalar := singleFrom c.position [] {} c.rest

/-- How much of an escape has been read. -/
inductive Escape where
  | none
  /-- The backslash. -/
  | opened
  /-- Some hexadecimal digits, with their value; `owed + 1` are to come. -/
  | digits (owed value : Nat)

/-- The character that a single letter behind a backslash stands for. -/
def escapedChar? (c : Char) : Option Char :=
  match c with
  | '0' => some (Char.ofNat 0)
  | 'a' => some (Char.ofNat 7)
  | 'b' => some (Char.ofNat 8)
  | 't' => some '\t'
  | '\t' => some '\t'
  | 'n' => some '\n'
  | 'v' => some (Char.ofNat 11)
  | 'f' => some (Char.ofNat 12)
  | 'r' => some '\r'
  | 'e' => some (Char.ofNat 27)
  | ' ' => some ' '
  | '"' => some '"'
  | '/' => some '/'
  | '\\' => some '\\'
  | 'N' => some (Char.ofNat 0x85)
  | '_' => some (Char.ofNat 0xA0)
  | 'L' => some (Char.ofNat 0x2028)
  | 'P' => some (Char.ofNat 0x2029)
  | _ => none

/-- The number of hexadecimal digits that a letter behind a backslash asks for. -/
def escapeWidth? (c : Char) : Option Nat :=
  if c = 'x' then some 2 else if c = 'u' then some 4 else if c = 'U' then some 8 else none

def hexDigit? (c : Char) : Option Nat :=
  if c.isDigit then some (c.toNat - 48)
  else if 'a' ≤ c ∧ c ≤ 'f' then some (c.toNat - 87)
  else if 'A' ≤ c ∧ c ≤ 'F' then some (c.toNat - 55)
  else none

/-- The character with a number. Numbers of halves of characters stand for the character that replaces what cannot be
shown. -/
def charOfNumber (n : Nat) : Except Fault Char :=
  if 0x7FFFFFFF < n then .error .hugeCharacter
  else if 0x10FFFF < n then .error .noCharacter
  else if n.isValidChar then .ok (Char.ofNat n)
  else .ok '\uFFFD'

def doubleFrom : Position → (text : List Char) → Gap → Escape → List Char → Except Fault Scalar
  | _, _, _, .opened, [] => .error .badEscape
  | _, _, _, .digits .., [] => .error .badEscape
  | _, _, _, .none, [] => .error .unclosedQuote
  | p, text, gap, .opened, c :: r =>
    if isBreak c then
      if isAnyMarker r then .error .markerInQuote else doubleFrom (p.next c) text { escaped := true } .none r
    else match escapedChar? c with
      | some d => doubleFrom (p.next c) (d :: text) gap .none r
      | none =>
        match escapeWidth? c with
        | some n => doubleFrom (p.next c) text gap (.digits (n - 1) 0) r
        | none => .error .badEscape
  | p, text, gap, .digits owed value, c :: r =>
    match hexDigit? c with
    | none => .error .badEscape
    | some d =>
      match owed with
      | owed + 1 => doubleFrom (p.next c) text gap (.digits owed (16 * value + d)) r
      | 0 =>
        match charOfNumber (16 * value + d) with
        | .ok x => doubleFrom (p.next c) (x :: text) gap .none r
        | .error f => .error f
  | p, text, gap, .none, c :: r =>
    if isBreak c then
      if isAnyMarker r then .error .markerInQuote else doubleFrom (p.next c) text (gap.lineBreak c) .none r
    else if isBlank c then doubleFrom (p.next c) text (gap.blank c) .none r
    else
      let text := gap.text.reverse ++ text
      if c = '"' then .ok ⟨text.reverse, false, ⟨r, p.next c⟩⟩
      else if c = '\\' then doubleFrom (p.next c) text {} .opened r
      else doubleFrom (p.next c) (c :: text) {} .none r

/-- The text in double quotes behind its opening quote. -/
def doubleQuoted (c : Cursor) : Except Fault Scalar := doubleFrom c.position [] {} .none c.rest

end Plotline.Yaml
