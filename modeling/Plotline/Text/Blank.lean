/-!
# Blanks, words and lines

* `isBlank`: white space of every script.
* `skipBlanks`, `trimEnd`, `trim`: a text without its leading, trailing or surrounding blanks.
* `indentation`: the width of the leading blanks.
* `words`: the maximal blank-free runs of a text.
* `lines`: the pieces of a text between line feeds; there is always one more than there are line feeds.
-/

namespace Plotline.Text

/-- White space of every script, the four information separators included. -/
def isBlank (c : Char) : Bool :=
  let n := c.toNat
  (9 ≤ n && n ≤ 13) || (28 ≤ n && n ≤ 32) || n == 0x85 || n == 0xA0 || n == 0x1680 ||
    (0x2000 ≤ n && n ≤ 0x200A) || n == 0x2028 || n == 0x2029 || n == 0x202F || n == 0x205F || n == 0x3000

def skipBlanks (s : List Char) : List Char := s.dropWhile isBlank

def trimEnd (s : List Char) : List Char := (s.reverse.dropWhile isBlank).reverse

def trim (s : List Char) : List Char := trimEnd (skipBlanks s)

def indentation (s : List Char) : Nat := (s.takeWhile isBlank).length

theorem length_dropWhile_le {α : Type} (p : α → Bool) :
    ∀ s : List α, (s.dropWhile p).length ≤ s.length
  | [] => Nat.le_refl _
  | c :: r => by
    rw [List.dropWhile_cons]
    split
    · exact Nat.le_succ_of_le (length_dropWhile_le p r)
    · exact Nat.le_refl _

/-- The maximal runs of characters that are not blank, from left to right. -/
def words (s : List Char) : List (List Char) :=
  match _h : skipBlanks s with
  | [] => []
  | c :: r => (c :: r.takeWhile (!isBlank ·)) :: words (r.dropWhile (!isBlank ·))
termination_by s.length
decreasing_by
  have h₁ := length_dropWhile_le isBlank s
  have h₂ := length_dropWhile_le (!isBlank ·) r
  rw [show s.dropWhile isBlank = c :: r from _h, List.length_cons] at h₁
  omega

/-- The lines of a text whose first line begins with `opened`, reversed. -/
def linesAfter (opened : List Char) : List Char → List (List Char)
  | [] => [opened.reverse]
  | c :: r => if c = '\n' then opened.reverse :: linesAfter [] r else linesAfter (c :: opened) r

/-- The pieces of a text between its line feeds; no other character ends a line. -/
def lines (s : List Char) : List (List Char) := linesAfter [] s

end Plotline.Text
