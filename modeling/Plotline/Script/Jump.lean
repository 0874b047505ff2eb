import Plotline.Text.Word
import Plotline.Script.Mask

/-!
# Jumps

* `jumpAt?`: the jump or call at the head of a masked text.
* `jumpsIn`: every jump and call of a line, with the columns of its target.
* `isTerminal`: a statement after which control does not run on.
-/

namespace Plotline.Script
open Text

/-- The two statements that name another label. -/
inductive JumpKind where
  | jump
  | call
deriving DecidableEq, Repr

namespace JumpKind

def keyword : JumpKind → String
  | jump => "jump"
  | call => "call"

end JumpKind

/-- A jump or call in a line. -/
structure JumpSite where
  kind : JumpKind
  /-- The name that it goes to. -/
  target : String
  /-- The offset of the target. -/
  start : Nat
  /-- The offset behind the target. -/
  stop : Nat
  /-- The target is computed when the script runs. -/
  dynamic : Bool
deriving DecidableEq, Repr

def jumpKeyword? (s : List Char) : Option (JumpKind × List Char) :=
  match after? ['j', 'u', 'm', 'p'] s with
  | some r => some (.jump, r)
  | none => (after? ['c', 'a', 'l', 'l'] s).map (.call, ·)

/-- The word that makes a target computed. -/
def dynamicWord : List Char := ['e', 'x', 'p', 'r', 'e', 's', 's', 'i', 'o', 'n']

/-- The dotted name behind blanks: where it starts, the name, what follows it. -/
def computedTarget? (s : List Char) : Option (List Char × List Char × List Char) := do
  let s ← afterBlanks? s
  let (n, rest) ← run? isDottedChar s
  some (s, n, rest)

/-- The jump at the head of a text, its columns counted from there, and the width of the statement up to the end of
its first name. -/
def jumpAt? (s : List Char) : Option (JumpSite × Nat) := do
  let (kind, r) ← jumpKeyword? s
  let named ← afterBlanks? r
  let (n, rest) ← name? named
  let width := s.length - rest.length
  let plain : JumpSite := ⟨kind, String.ofList n, s.length - named.length, width, false⟩
  if n = dynamicWord then
    match computedTarget? rest with
    | some (tail, m, after) =>
      some (⟨kind, String.ofList m, s.length - tail.length, s.length - after.length, true⟩, width)
    | none => some ({ plain with dynamic := true }, width)
  else some (plain, width)

def JumpSite.shift (site : JumpSite) (offset : Nat) : JumpSite :=
  { site with start := site.start + offset, stop := site.stop + offset }

/-- The jumps of a masked line from `offset` on; `inside` characters of a statement are still to come, and `before`
is the character in front. A keyword that runs on a word is none. -/
def jumpsFrom : (inside : Nat) → (before : Option Char) → (offset : Nat) → List Char → List JumpSite
  | _, _, _, [] => []
  | n + 1, _, offset, c :: r => jumpsFrom n (some c) (offset + 1) r
  | 0, before, offset, c :: r =>
    match if before.any isWordChar then none else jumpAt? (c :: r) with
    | some (site, width) => site.shift offset :: jumpsFrom (width - 1) (some c) (offset + 1) r
    | none => jumpsFrom 0 (some c) (offset + 1) r

/-- The jumps and calls of a line, from left to right; none in a string literal or a comment. -/
def jumpsIn (line : List Char) : List JumpSite := jumpsFrom 0 none 0 (mask line)

/-- The statement is a jump, a call or a return, so that control does not run on behind it. -/
def isTerminal (statement : List Char) : Bool :=
  match jumpKeyword? statement with
  | some (_, r) => ((afterBlanks? r).bind name?).isSome
  | none =>
    match after? ['r', 'e', 't', 'u', 'r', 'n'] statement with
    | some r => endsWord r
    | none => false

end Plotline.Script
