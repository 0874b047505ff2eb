import Plotline.Text.Word
import Plotline.Unicode.Decimal

/-!
# Header lines

A header line is blanks, a keyword, what the keyword asks for, and a colon.

* `labelHeader?`: `label NAME:`, with an optional parameter list.
* `menuHeader?`, `namedMenuHeader?`: `menu:` and `menu NAME:`.
* `screenHeader?`: `screen NAME(PARAMETERS):`.
* `codeHeader?`: `python:`, also behind `init` and a priority.
-/

namespace Plotline.Script
open Text

/-- A recognised `label` header. -/
structure LabelHeader where
  name : String
  /-- The offset of the name in its line. -/
  column : Nat
  /-- What follows the colon. -/
  rest : List Char

/-- A recognised header of a named menu. -/
structure MenuHeader where
  name : String
  /-- The offset of the name in its line. -/
  column : Nat
  /-- What follows the colon. -/
  rest : List Char

/-- A recognised `screen` header. -/
structure ScreenHeader where
  name : String
  /-- The parameter list with its parentheses. -/
  parameters : Option String
  /-- What follows the colon. -/
  rest : List Char

/-- The text up to the last `)` of this line that only blanks part from a colon, and what follows that colon. -/
def closeBeforeColon? : List Char → Option (List Char × List Char)
  | [] => none
  | c :: r =>
    if c = '\n' then none
    else match closeBeforeColon? r with
      | some (p, rest) => some (c :: p, rest)
      | none => if c = ')' then (afterMark? ':' r).map ([c], ·) else none

/-- The end of a header with an optional parameter list: the list, and what follows the colon. -/
def headerEnd? (s : List Char) : Option (Option (List Char) × List Char) :=
  match skipBlanks s with
  | [] => none
  | c :: r =>
    if c = '(' then (closeBeforeColon? r).map fun e => (some (c :: e.1), e.2)
    else if c = ':' then some (none, r)
    else none

/-- The name behind a keyword: where it starts, the name, what follows it. -/
def keywordName? (keyword line : List Char) : Option (Nat × List Char × List Char) := do
  let s ← after? keyword (skipBlanks line)
  let s ← afterBlanks? s
  let (n, rest) ← name? s
  some (line.length - s.length, n, rest)

def labelHeader? (line : List Char) : Option LabelHeader := do
  let (column, n, s) ← keywordName? ['l', 'a', 'b', 'e', 'l'] line
  let (_, rest) ← headerEnd? s
  some ⟨String.ofList n, column, rest⟩

def namedMenuHeader? (line : List Char) : Option MenuHeader := do
  let (column, n, s) ← keywordName? ['m', 'e', 'n', 'u'] line
  let rest ← afterMark? ':' s
  some ⟨String.ofList n, column, rest⟩

/-- What follows the header of a menu, named or not. -/
def menuHeader? (line : List Char) : Option (List Char) :=
  match (after? ['m', 'e', 'n', 'u'] (skipBlanks line)).bind (afterMark? ':') with
  | some rest => some rest
  | none => (namedMenuHeader? line).map (·.rest)

def screenHeader? (line : List Char) : Option ScreenHeader := do
  let (_, n, s) ← keywordName? ['s', 'c', 'r', 'e', 'e', 'n'] line
  let (parameters, rest) ← headerEnd? s
  some ⟨String.ofList n, parameters.map String.ofList, rest⟩

/-- A whole number with an optional minus sign in front of blanks; what follows the blanks. -/
def priority? (s : List Char) : Option (List Char) := do
  let (_, rest) ← run? Unicode.isDigit ((after? ['-'] s).getD s)
  afterBlanks? rest

/-- What follows `init`, an optional priority and blanks; a text without `init` is its own rest. -/
def skipInit (s : List Char) : List Char :=
  match (after? ['i', 'n', 'i', 't'] s).bind afterBlanks? with
  | some t => (priority? t).getD t
  | none => s

def codeHeader? (line : List Char) : Option (List Char) := do
  let s ← after? ['p', 'y', 't', 'h', 'o', 'n'] (skipInit (skipBlanks line))
  if endsWord s then after? [':'] (s.dropWhile (· ≠ ':')) else none

end Plotline.Script
