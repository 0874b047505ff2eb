/-!
# Patterns of texts

* `Pattern`: a class of texts, built from classes of characters.
* `Pattern.accepts`: whether a text is in the class, by what is left to match behind each of its characters.
-/

namespace Plotline.Text

inductive Pattern where
  /-- No text. -/
  | nothing
  | empty
  /-- One character that satisfies `p`. -/
  | one (p : Char → Bool)
  /-- A text of `a` and one of `b` behind it. -/
  | seq (a b : Pattern)
  /-- A text of `a` or of `b`. -/
  | alt (a b : Pattern)
  /-- Any number of texts of `a`. -/
  | many (a : Pattern)

namespace Pattern

def isNullable : Pattern → Bool
  | nothing => false
  | empty => true
  | one _ => false
  | seq a b => a.isNullable && b.isNullable
  | alt a b => a.isNullable || b.isNullable
  | many _ => true

/-- The class `seq a b`, without parts that add nothing. -/
def andThen : Pattern → Pattern → Pattern
  | nothing, _ => nothing
  | _, nothing => nothing
  | empty, b => b
  | a, empty => a
  | a, b => seq a b

/-- The class `alt a b`, without parts that add nothing. -/
def orElse : Pattern → Pattern → Pattern
  | nothing, b => b
  | a, nothing => a
  | a, b => alt a b

/-- What is left to match behind a character. -/
def after (c : Char) : Pattern → Pattern
  | nothing => nothing
  | empty => nothing
  | one p => if p c then empty else nothing
  | seq a b =>
    let rest := (a.after c).andThen b
    if a.isNullable then rest.orElse (b.after c) else rest
  | alt a b => (a.after c).orElse (b.after c)
  | many a => (a.after c).andThen (many a)

def accepts (r : Pattern) (s : List Char) : Bool := (s.foldl (fun r c => r.after c) r).isNullable

/-- A text of `a`, or nothing. -/
def maybe (a : Pattern) : Pattern := alt a empty

/-- At least one text of `a`. -/
def several (a : Pattern) : Pattern := seq a (many a)

def inOrder (rs : List Pattern) : Pattern := rs.foldr seq empty

def anyOf (rs : List Pattern) : Pattern := rs.foldr alt nothing

def char (c : Char) : Pattern := one (· = c)

def oneOf (s : String) : Pattern := one s.toList.contains

def word (s : String) : Pattern := inOrder (s.toList.map char)

def words (ws : List String) : Pattern := anyOf (ws.map word)

def digit : Pattern := one Char.isDigit

end Pattern
end Plotline.Text
