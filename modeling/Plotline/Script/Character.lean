import Plotline.Number.Whole
import Plotline.Palette
import Plotline.Script.Arguments

/-!
# Characters

* `Character`: a speaking character of a script, with the presentation that its definition gives.
* `Character.ofCall`: the character of a tag and an argument list.
* `profileBefore?`: the profile comment above a definition.
* `charactersIn`: every character that a text defines, in order.
-/

namespace Plotline.Script
open Text

/-- Where a character's mark of a finished line stands. -/
inductive MarkPosition where
  | nestled
  | fixed
deriving DecidableEq, Repr

namespace MarkPosition

def word : MarkPosition → String
  | nestled => "nestled"
  | fixed => "fixed"

def ofWord? (s : String) : Option MarkPosition :=
  if s = "nestled" then some nestled else if s = "fixed" then some fixed else none

end MarkPosition

/-- A character of a script. What its definition does not say, or not readably, is absent. -/
structure Character where
  /-- The name by which lines of dialogue call the character. -/
  tag : String
  /-- The name that is shown. -/
  name : String
  /-- The colour of the name. -/
  color : String
  block : String
  /-- The text of the profile comment. -/
  profile : Option String
  image : Option String
  whoStyle : Option String
  whoPrefix : Option String
  whoSuffix : Option String
  whatColor : Option String
  whatStyle : Option String
  whatPrefix : Option String
  whatSuffix : Option String
  slow : Option Bool
  slowSpeed : Option Int
  slowAbortable : Option Bool
  allAtOnce : Option Bool
  windowStyle : Option String
  /-- The mark of a finished line. -/
  mark : Option String
  markPosition : Option MarkPosition
  interact : Option Bool
  /-- Whether lines move on by themselves. -/
  autoForward : Option Bool
  whatProperties : Option String
  windowProperties : Option String
deriving DecidableEq, Repr

/-- The letters of a text in lower case, other characters unchanged. -/
def lowered (s : List Char) : List Char := s.map Char.toLower

/-- The text that a call `_(…)` marks as shown in the language of the reader. -/
def localized? (s : List Char) : Option (List Char) := do
  let r ← after? ['_', '('] s
  if r.getLast? = some ')' then some (trim r.dropLast) else none

/-- The shown name that an argument gives, or the tag if it gives none. -/
def displayName (raw : Option String) (tag : String) : String :=
  match raw with
  | none => tag
  | some raw =>
    let s := trim raw.toList
    if lowered s = ['n', 'o', 'n', 'e'] then tag
    else
      let shown := unquote ((localized? s).getD s)
      if shown.isEmpty then tag else String.ofList shown

def truth? (value : String) : Option Bool :=
  let s := String.ofList (trim value.toList)
  if s = "True" then some true else if s = "False" then some false else none

/-- The value of a keyword without its quotes. -/
def Arguments.text? (a : Arguments) (keyword : String) : Option String :=
  (a.keywords.get? keyword).map fun v => String.ofList (unquote v.toList)

def Arguments.truth? (a : Arguments) (keyword : String) : Option Bool :=
  (a.keywords.get? keyword).bind Script.truth?

def Character.ofCall (tag : String) (args : List Char) (block : String) (profile : Option String) : Character :=
  let a := Arguments.ofText args
  { tag, block, profile
    name := displayName (a.keywords.get? "name" <|> a.positional.head?) tag
    color := match a.text? "color" with
      | some c => if c.isEmpty then Palette.colorOf tag.toList else c
      | none => Palette.colorOf tag.toList
    image := a.text? "image"
    whoStyle := a.text? "who_style"
    whoPrefix := a.text? "who_prefix"
    whoSuffix := a.text? "who_suffix"
    whatColor := a.text? "what_color"
    whatStyle := a.text? "what_style"
    whatPrefix := a.text? "what_prefix"
    whatSuffix := a.text? "what_suffix"
    slow := a.truth? "slow"
    slowSpeed := (a.text? "slow_speed").bind fun s => Number.wholePrefix? s.toList
    slowAbortable := a.truth? "slow_abortable"
    allAtOnce := a.truth? "all_at_once"
    windowStyle := a.text? "window_style"
    mark := a.text? "ctc"
    markPosition := (a.text? "ctc_position").bind MarkPosition.ofWord?
    interact := a.truth? "interact"
    autoForward := a.truth? "afm"
    whatProperties := a.keywords.get? "what_properties"
    windowProperties := a.keywords.get? "window_properties" }

/-- What a profile comment begins with. -/
def profileMark : List Char := ['#', ' ', 'p', 'r', 'o', 'f', 'i', 'l', 'e', ':']

/-- The profile in the nearest line that is not blank above the line of `offset`. -/
def profileBefore? (content : List Char) (offset : Nat) : Option String :=
  let above := ((lines (content.take offset)).dropLast.map trim).filter (!·.isEmpty)
  (above.getLast?.bind (after? profileMark)).map fun r => String.ofList (trim r)

def skipSpaces (s : List Char) : List Char := s.dropWhile fun c => c = ' ' || c = '\t'

/-- The tag of the definition of a character at the start of a line, and what follows the parenthesis that opens its
argument list. -/
def characterHead? (s : List Char) : Option (List Char × List Char) := do
  let s ← after? ['d', 'e', 'f', 'i', 'n', 'e'] (skipSpaces s)
  let t := skipSpaces s
  if t.length = s.length then none
  else
    let (tag, s) ← name? t
    let s ← afterMark? '=' s
    let s ← after? ['C', 'h', 'a', 'r', 'a', 'c', 't', 'e', 'r'] (skipBlanks s)
    let s ← afterMark? '(' s
    some (tag, s)

/-- The heads of the definitions from `offset` on, each with its offset, its tag and what follows its parenthesis;
`inside` characters of a head are still to come, and `fresh` says that a line starts here. -/
def headsFrom : (inside : Nat) → (fresh : Bool) → (offset : Nat) → List Char → List (Nat × List Char × List Char)
  | _, _, _, [] => []
  | n + 1, _, offset, c :: r => headsFrom n (c = '\n') (offset + 1) r
  | 0, fresh, offset, c :: r =>
    match if fresh then characterHead? (c :: r) else none with
    | some (tag, rest) => (offset, tag, rest) :: headsFrom (r.length - rest.length) false (offset + 1) r
    | none => headsFrom 0 (c = '\n') (offset + 1) r

/-- The characters that a text defines, in order. -/
def charactersIn (content : List Char) (block : String) : List Character :=
  (headsFrom 0 true 0 content).map fun (offset, tag, rest) =>
    Character.ofCall (String.ofList tag) (callArguments rest 0).1 block (profileBefore? content offset)

end Plotline.Script
