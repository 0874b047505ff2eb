import Plotline.Number.Arithmetic
import Plotline.Script.Mask
import Plotline.Text.Word

/-!
# Speech

* `speaker?`: the tag in front of a string literal, `TAG "…`.
* `isNarration`: a line that opens with a string literal.
* `spoken`: the string literals of a text, from left to right.
* `wordCount`: the number of words in them.
-/

namespace Plotline.Script
open Text

/-- The name in front of a double quote, and what follows the quote. -/
def speaker? (line : List Char) : Option (List Char × List Char) := do
  let (n, s) ← name? (skipBlanks line)
  let s ← afterBlanks? s
  let rest ← after? ['"'] s
  some (n, rest)

def narration? (line : List Char) : Option (List Char) := after? ['"'] (skipBlanks line)

/-- The bodies of the literals in double quotes; `inside` characters of a literal are still to come. A quote without
its partner opens nothing. -/
def spokenFrom (found : List (List Char)) : (inside : Nat) → List Char → List (List Char)
  | _, [] => found.reverse
  | n + 1, _ :: r => spokenFrom found n r
  | 0, c :: r =>
    if c = '"' then
      match closing? '"' 1 r with
      | some n => spokenFrom (r.take (n - 2) :: found) (n - 1) r
      | none => spokenFrom found 0 r
    else spokenFrom found 0 r

/-- The bodies of the literals in double quotes, from left to right. -/
def spoken (s : List Char) : List (List Char) := spokenFrom [] 0 s

def wordCount (s : List Char) : Nat := Number.total ((spoken s).map fun body => (words body).length)

end Plotline.Script
