import Plotline.Story.Roles

/-!
# Who speaks and what is used

* `DialogueLine`: a line that a character speaks.
* `UseSite`: a line that mentions a variable.
* `mentions`: a masked line has a name in it that nothing runs on.
* `Usage`: lines spoken per character, spoken lines per block, mentions per variable.
* `Usage.ofBlocks`: the usage of all blocks that were read.
-/

namespace Plotline
open Script

/-- A line that a character speaks. -/
structure DialogueLine where
  line : Int
  tag : String
deriving DecidableEq, Repr

/-- A line that mentions a variable. -/
structure UseSite where
  block : String
  line : Int
deriving DecidableEq, Repr

/-- The name stands somewhere in the text with no character of a name directly before or after it; `before` is the
character in front of the text. -/
def mentionsFrom (name : List Char) (before : Option Char) (s : List Char) : Bool :=
  (!before.any Text.isNameChar && ((Text.after? name s).any fun r => !r.head?.any Text.isNameChar)) ||
    match s with
    | [] => false
    | c :: r => mentionsFrom name (some c) r

/-- The name stands somewhere in a masked line with no character of a name directly before or after it. -/
def mentions (name masked : List Char) : Bool := mentionsFrom name none masked

/-- Who speaks and what is used. -/
structure Usage where
  /-- The number of lines of each character. -/
  spoken : Table String Nat
  /-- The spoken lines of each block that has some. -/
  dialogue : Table String (List DialogueLine) := ∅
  /-- The mentions of each variable. -/
  uses : Table String (List UseSite)

namespace Usage

/-- No character has spoken and no variable is mentioned yet. -/
def start (t : Tables) : Usage := { spoken := t.characters.map fun _ => 0, uses := t.vars.map fun _ => [] }

def speakerOf (t : Tables) (line : List Char) : Option String :=
  (dialogue? t.characters.contains line).bind id

/-- The masked line mentions the variable, and not where the variable is defined. -/
def usedAt (v : Variable) (block : String) (masked : List Char) (number : Nat) : Bool :=
  mentions v.name.toList masked && !(v.block = block && v.line = number)

def addLine (t : Tables) (block : String) (u : Usage) (line : List Char) (number : Nat) : Usage :=
  let masked := mask line
  let users := t.vars.values.filter fun v => usedAt v block masked number
  let uses := users.foldl (fun us v => us.update v.name [] (· ++ [⟨block, number⟩])) u.uses
  match speakerOf t line with
  | some tag =>
    { spoken := u.spoken.update tag 0 (· + 1)
      dialogue := u.dialogue.update block [] (· ++ [⟨number, tag⟩])
      uses }
  | none => { u with uses }

def addBlock (t : Tables) (u : Usage) (b : Block) : Usage :=
  b.numberedLines.foldl (fun u l => addLine t b.id u l.1 l.2) u

def ofBlocks (blocks : List Block) (t : Tables) : Usage :=
  (blocks.filter fun b => t.hasScanned b.id).foldl (addBlock t) (start t)

end Usage
end Plotline
