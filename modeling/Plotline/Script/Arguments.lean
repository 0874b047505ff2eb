import Plotline.Table
import Plotline.Text.Word

/-!
# Argument lists

* `argumentsLength?`: how far the argument list of a call reaches.
* `callArguments`: the argument list behind an opening parenthesis, and where it ends.
* `pieces`: an argument list cut at its top-level commas.
* `Arguments.ofText`: positional arguments and keyword arguments.
* `unquote`: a text without one pair of quotes around it.
-/

namespace Plotline.Script
open Text

def isQuote (c : Char) : Bool := c = '"' || c = '\''

/-- The number of characters in front of the parenthesis that closes a call. Parentheses in string literals do not
count, and a backslash in a literal takes the next character with it. -/
def argumentsLength? (depth : Nat) (quote : Option Char) (seen : Nat) : List Char → Option Nat
  | [] => none
  | c :: r =>
    match quote with
    | some q =>
      if c = '\\' then
        match r with
        | [] => none
        | _ :: r' => argumentsLength? depth quote (seen + 2) r'
      else argumentsLength? depth (if c = q then none else quote) (seen + 1) r
    | none =>
      if isQuote c then argumentsLength? depth (some c) (seen + 1) r
      else if c = '(' then argumentsLength? (depth + 1) none (seen + 1) r
      else if c = ')' then
        match depth with
        | 0 => some seen
        | d + 1 => argumentsLength? d none (seen + 1) r
      else argumentsLength? depth none (seen + 1) r

/-- The argument list of a call whose opening parenthesis ends at `start`, and the offset behind its closing
parenthesis. A call that is never closed takes the whole rest of the text. -/
def callArguments (text : List Char) (start : Nat) : List Char × Nat :=
  let s := text.drop start
  match argumentsLength? 0 none 0 s with
  | some n => (s.take n, start + n + 1)
  | none => (s, text.length)

/-- Where a reader of an argument list stands. -/
structure PieceState where
  /-- How many brackets are open; negative behind stray closing ones. -/
  depth : Int := 0
  /-- The quote of the literal that is open. -/
  quote : Option Char := none
  /-- The last character was a backslash in a literal. -/
  escaped : Bool := false

def PieceState.next (st : PieceState) (c : Char) : PieceState :=
  match st.quote with
  | some q =>
    if st.escaped then { st with escaped := false }
    else if c = '\\' then { st with escaped := true }
    else if c = q then { st with quote := none }
    else st
  | none =>
    if isQuote c then { st with quote := some c }
    else if c = '(' || c = '[' || c = '\x7b' then { st with depth := st.depth + 1 }
    else if c = ')' || c = ']' || c = '\x7d' then { st with depth := st.depth - 1 }
    else st

/-- A comma ends a piece outside literals and brackets. -/
def PieceState.isCut (st : PieceState) (c : Char) : Bool := st.quote.isNone && c = ',' && st.depth = 0

/-- The pieces of an argument list whose first piece begins with `opened`, reversed. -/
def piecesFrom (st : PieceState) (opened : List Char) : List Char → List (List Char)
  | [] => [trim opened.reverse]
  | c :: r =>
    if st.isCut c then trim opened.reverse :: piecesFrom st [] r
    else piecesFrom (st.next c) (c :: opened) r

/-- An argument list cut at its top-level commas, without surrounding blanks. -/
def pieces (args : List Char) : List (List Char) := piecesFrom {} [] args

/-- The name and the value of a piece of the form `NAME = VALUE`; `==` is no equals sign. -/
def keyword? (piece : List Char) : Option (List Char × List Char) := do
  let (n, s) ← name? (skipBlanks piece)
  let s ← afterMark? '=' s
  if (after? ['='] s).isSome then none
  else
    let value := trimEnd (skipBlanks s)
    if value.isEmpty then none else some (n, value)

structure Arguments where
  /-- The positional arguments as they are written, in order. -/
  positional : List String
  /-- The keyword arguments as they are written; the last value of a name counts. -/
  keywords : Table String String

/-- Adds a piece of an argument list; an empty piece adds nothing. -/
def Arguments.add (a : Arguments) (piece : List Char) : Arguments :=
  if piece.isEmpty then a
  else match keyword? piece with
    | some (n, v) => { a with keywords := a.keywords.insert (String.ofList n) (String.ofList v) }
    | none => { a with positional := a.positional ++ [String.ofList piece] }

def Arguments.ofText (args : List Char) : Arguments := (pieces args).foldl Arguments.add ⟨[], ∅⟩

/-- The text without surrounding blanks and then without one pair of equal quotes. -/
def unquote (value : List Char) : List Char :=
  match trim value with
  | [] => []
  | c :: r => if isQuote c && r.getLast? == some c then r.dropLast else c :: r

end Plotline.Script
