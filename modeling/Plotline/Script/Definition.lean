import Plotline.Text.Word

/-!
# Definition lines

* `definition?`: `define NAME = VALUE` and `default NAME = VALUE`, unless the value is a character.
* `imageDefinition?`: `image NAME = …`, where the name may have spaces in it.
-/

namespace Plotline.Script
open Text

/-- The two statements that give a variable its first value. -/
inductive VariableKind where
  | define
  | default
deriving DecidableEq, Repr

namespace VariableKind

def keyword : VariableKind → String
  | define => "define"
  | default => "default"

end VariableKind

structure Definition where
  kind : VariableKind
  /-- The defined name, which may have dots in it. -/
  name : String
  /-- The value as it stands in the line. -/
  value : List Char
  /-- What follows the value. -/
  rest : List Char

def isCharacterCall (s : List Char) : Bool :=
  match after? ['C', 'h', 'a', 'r', 'a', 'c', 't', 'e', 'r'] s with
  | some r => (afterMark? '(' r).isSome
  | none => false

/-- The last blank of a blank text that ends no line, and what follows it. -/
def lastBlank? : List Char → Option (List Char × List Char)
  | [] => none
  | c :: r =>
    match lastBlank? r with
    | some e => some e
    | none => if c = '\n' then none else some ([c], r)

/-- The value behind an equals sign: the rest of the line from its first character that is not blank, or one blank
if there is none. -/
def value? (s : List Char) : Option (List Char × List Char) :=
  let body := skipBlanks s
  if isCharacterCall body then none
  else if body.isEmpty then lastBlank? s
  else some (body.takeWhile (· ≠ '\n'), body.dropWhile (· ≠ '\n'))

def definitionKeyword? (s : List Char) : Option (VariableKind × List Char) :=
  match after? ['d', 'e', 'f', 'i', 'n', 'e'] s with
  | some r => some (.define, r)
  | none => (after? ['d', 'e', 'f', 'a', 'u', 'l', 't'] s).map (.default, ·)

def definition? (line : List Char) : Option Definition := do
  let (kind, s) ← definitionKeyword? (skipBlanks line)
  let s ← afterBlanks? s
  let (n, s) ← run? isDottedChar s
  let s ← afterMark? '=' s
  let (value, rest) ← value? s
  some ⟨kind, String.ofList n, value, rest⟩

/-- The shortest image name that only blanks part from an equals sign, and what follows that sign. -/
def imageName? : List Char → Option (List Char × List Char)
  | [] => none
  | c :: r =>
    if isNameChar c || c = ' ' then
      match afterMark? '=' r with
      | some rest => some ([c], rest)
      | none => (imageName? r).map fun e => (c :: e.1, e.2)
    else none

/-- The name of the image that a line defines, as it stands there, and what follows the equals sign. A name of
spaces alone counts as one space if another blank parts it from the keyword. -/
def imageDefinition? (line : List Char) : Option (List Char × List Char) := do
  let s ← after? ['i', 'm', 'a', 'g', 'e'] (skipBlanks line)
  let body ← afterBlanks? s
  match after? ['='] body with
  | some rest => if ((s.takeWhile isBlank).drop 1).contains ' ' then some ([' '], rest) else none
  | none => imageName? body

end Plotline.Script
