/-!
# Pieces of a text

* `pieces`: the pieces of a text between separators.
-/

namespace Plotline.Text

/-- The pieces of a text between separators; there is always one more than there are of these. -/
def pieces (separates : Char → Bool) : List Char → List (List Char)
  | [] => [[]]
  | c :: r =>
    if separates c then [] :: pieces separates r
    else match pieces separates r with
      | [] => [[c]]
      | p :: ps => (c :: p) :: ps

end Plotline.Text
