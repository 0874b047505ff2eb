import Plotline.Text.Word

/-!
# Masked lines

* `literalLength?`: how far a string literal reaches that opens at the head of a text.
* `blankLiterals`: a line with every closed string literal replaced by spaces of the same length.
* `mask`: the same, cut at the first `#` outside literals. Every column of a masked line is a column of the line.
-/

namespace Plotline.Script

/-- The number of characters up to the quote `q` that closes a literal, that quote included. A backslash takes the
next character with it, which must not be a line feed. -/
def closing? (q : Char) (seen : Nat) : List Char → Option Nat
  | [] => none
  | c :: r =>
    if c = q then some (seen + 1)
    else if c = '\\' then
      match r with
      | [] => none
      | d :: r' => if d = '\n' then none else closing? q (seen + 2) r'
    else closing? q (seen + 1) r

/-- The length of the string literal at the head of a text, both quotes included. -/
def literalLength? : List Char → Option Nat
  | [] => none
  | c :: r => if c = '"' || c = '\'' then closing? c 1 r else none

/-- Replaces closed literals by spaces; `inside` characters of a literal are still to come. -/
def blankFrom : (inside : Nat) → List Char → List Char
  | _, [] => []
  | n + 1, _ :: r => ' ' :: blankFrom n r
  | 0, c :: r =>
    match literalLength? (c :: r) with
    | some n => ' ' :: blankFrom (n - 1) r
    | none => c :: blankFrom 0 r

def blankLiterals (line : List Char) : List Char := blankFrom 0 line

/-- The line without its string literals, which become spaces, and without its comment. -/
def mask (line : List Char) : List Char := (blankLiterals line).takeWhile (· ≠ '#')

end Plotline.Script
