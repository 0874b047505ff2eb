import Plotline.Text.Blank
import Plotline.Unicode.Alphanumeric

/-!
# Names and word boundaries

* `isNameChar`: the characters of a name, ASCII letters, digits and the underscore.
* `isDottedChar`: the characters of a dotted name.
* `isWordChar`: the characters that run on a word, of every script.
* `name?`: the longest non-empty name at the head of a text.
* `after?`: what follows a given beginning.
* `afterBlanks?`: what follows one or more blanks.
-/

namespace Plotline.Text

def isNameChar (c : Char) : Bool := c.isAlphanum || c = '_'

/-- Characters of a name that may have dots in it. -/
def isDottedChar (c : Char) : Bool := isNameChar c || c = '.'

/-- Characters that run on a word; a keyword ends where none follows. -/
def isWordChar (c : Char) : Bool := Unicode.isAlphanumeric c || c = '_'

/-- The longest run of characters of `p` at the head of a text, if it is not empty, and what follows it. -/
def run? (p : Char → Bool) (s : List Char) : Option (List Char × List Char) :=
  match s.takeWhile p with
  | [] => none
  | n => some (n, s.dropWhile p)

def name? (s : List Char) : Option (List Char × List Char) := run? isNameChar s

/-- What follows `start` in a text that begins with it. -/
def after? : (start : List Char) → List Char → Option (List Char)
  | [], s => some s
  | _ :: _, [] => none
  | a :: as, c :: r => if a = c then after? as r else none

def afterBlanks? : List Char → Option (List Char)
  | [] => none
  | c :: r => if isBlank c then some (skipBlanks r) else none

/-- What follows blanks, if any, and the character `c`. -/
def afterMark? (c : Char) (s : List Char) : Option (List Char) := after? [c] (skipBlanks s)

/-- No word runs on into this text. -/
def endsWord : List Char → Bool
  | [] => true
  | c :: _ => !isWordChar c

end Plotline.Text
