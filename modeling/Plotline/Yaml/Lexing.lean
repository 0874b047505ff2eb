import Plotline.Yaml.Token

/-!
# How a YAML text is cut up

* `Lexing`: how far a text has been cut up, with the blocks that are open and the keys that may still turn out as such.
* `Lexing.step`: cuts off the next part.
* `Lexing.ofText`: the parts of a text, up to the first that is faulty.
-/

namespace Plotline.Yaml

/-- A part that turns out to be a key if a colon follows on its line. -/
structure Candidate where
  /-- It must be a key: nothing else can begin in this column. -/
  required : Bool
  /-- The number of parts before it. -/
  number : Nat
  position : Position

/-- A pair of brackets that is open. -/
structure Bracket where
  /-- It holds a list, not a map. -/
  isList : Bool
  /-- What may still turn out to be a key outside it. -/
  outer : Option Candidate

/-- How far a text has been cut up. -/
structure Lexing where
  cursor : Cursor
  version : Version := .v12
  /-- The parts so far, last one first. -/
  tokens : List Token := []
  /-- The number of parts so far. -/
  count : Nat := 0
  /-- The indentation of the innermost block; there is none at -1. -/
  indent : Int := -1
  /-- The indentations of the blocks around it. -/
  outerIndents : List Int := []
  /-- Whether a key may begin here. -/
  keyAllowed : Bool := true
  /-- What may still turn out to be a key. -/
  candidate : Option Candidate := none
  /-- The brackets that are open, innermost first. -/
  brackets : List Bracket := []
  /-- The end has been reached. -/
  finished : Bool := false

namespace Lexing

def flow (s : Lexing) : Bool := !s.brackets.isEmpty

def column (s : Lexing) : Nat := s.cursor.column

/-- Adds a part at the end. -/
def push (s : Lexing) (t : Token) : Lexing := { s with tokens := t :: s.tokens, count := s.count + 1 }

/-- Adds a part behind the first `number` ones. -/
def insert (s : Lexing) (number : Nat) (t : Token) : Lexing :=
  let n := s.count - number
  { s with tokens := s.tokens.take n ++ t :: s.tokens.drop n, count := s.count + 1 }

/-- Goes on behind a part of `n` characters. -/
def advance (s : Lexing) (n : Nat) : Lexing := { s with cursor := s.cursor.skipN n }

/-! ## Keys -/

/-- Everything that may still turn out to be a key. -/
def candidates (s : Lexing) : List Candidate := s.candidate.toList ++ s.brackets.filterMap (·.outer)

/-- What has been read is no key; a fault if it must be one. -/
def dropCandidate (s : Lexing) : Except Fault Lexing :=
  if s.candidate.any (·.required) then .error .keyWithoutValue else .ok { s with candidate := none }

/-- What begins here may be a key, if keys are allowed. -/
def markCandidate (s : Lexing) : Except Fault Lexing :=
  if s.keyAllowed then do
    let s ← s.dropCandidate
    let required := !s.flow && s.indent = (s.column : Int)
    pure { s with candidate := some ⟨required, s.count, s.cursor.position⟩ }
  else .ok s

/-- Whether a key that began at `c` can still go on at `p`: on the same line and within 1024 characters. -/
def fresh (c : Candidate) (p : Position) : Bool := c.position.line = p.line && p.index ≤ c.position.index + 1024

/-- A candidate that is too far back is no key. -/
def stale (p : Position) : Option Candidate → Except Fault (Option Candidate)
  | none => .ok none
  | some c =>
    if fresh c p then .ok (some c) else if c.required then .error .keyWithoutValue else .ok none

/-- Gives up the candidates that are too far back. -/
def dropStale (s : Lexing) : Except Fault Lexing := do
  let p := s.cursor.position
  let candidate ← stale p s.candidate
  let brackets ← s.brackets.mapM fun b => return { b with outer := ← stale p b.outer }
  pure { s with candidate, brackets }

/-! ## Blocks -/

/-- Opens a block at a column if it is further in than the innermost one; its first part is to stand behind `number`
others. -/
def openBlock (s : Lexing) (column number : Nat) (t : Token) : Lexing :=
  if s.flow || (column : Int) ≤ s.indent then s
  else { s.insert number t with indent := column, outerIndents := s.indent :: s.outerIndents }

def closed (column : Int) (indent : Int) : List Int → Nat × Int × List Int
  | [] => (0, indent, [])
  | outer :: outers =>
    if column < indent then
      let (n, i, is) := closed column outer outers
      (n + 1, i, is)
    else (0, indent, outer :: outers)

def closeBlocks (s : Lexing) (column : Int) : Lexing :=
  if s.flow then s
  else
    let (n, indent, outerIndents) := closed column s.indent s.outerIndents
    { s with tokens := List.replicate n .blockEnd ++ s.tokens, count := s.count + n, indent, outerIndents }

/-! ## Space between parts -/

/-- Passes spaces, comments and line ends, and in brackets tabs; a line end outside brackets allows a key again. -/
def spaceFrom (flow : Bool) : (comment keyAllowed : Bool) → Position → List Char → Bool × Cursor
  | _, keyAllowed, p, [] => (keyAllowed, ⟨[], p⟩)
  | comment, keyAllowed, p, c :: r =>
    if isBreak c then spaceFrom flow false (keyAllowed || !flow) (p.next c) r
    else if comment || isSpace c || (flow && isBlank c) then spaceFrom flow comment keyAllowed (p.next c) r
    else if c = '#' then spaceFrom flow true keyAllowed (p.next c) r
    else (keyAllowed, ⟨c :: r, p⟩)

def toNext (s : Lexing) : Lexing :=
  let (keyAllowed, cursor) := spaceFrom s.flow false s.keyAllowed s.cursor.position s.cursor.rest
  { s with keyAllowed, cursor }

/-! ## Parts -/

/-- A part of one character that may not be a key and behind which keys are allowed as said. -/
def sign (s : Lexing) (t : Token) (keyAllowed : Bool) : Except Fault Lexing := do
  let s ← s.dropCandidate
  pure { (s.push t).advance 1 with keyAllowed }

def openFlow (s : Lexing) (isList : Bool) : Except Fault Lexing := do
  let s ← s.markCandidate
  pure { (s.push (if isList then .flowList else .flowMap)).advance 1 with
    keyAllowed := true, candidate := none, brackets := ⟨isList, s.candidate⟩ :: s.brackets }

def closeFlow (s : Lexing) (t : Token) : Except Fault Lexing := do
  let s ← s.dropCandidate
  let s := { (s.push t).advance 1 with keyAllowed := false }
  match s.brackets with
  | [] => pure s
  | b :: brackets => pure { s with candidate := b.outer, brackets }

def item (s : Lexing) : Except Fault Lexing :=
  if s.flow then s.sign .item true
  else if !s.keyAllowed then .error .misplacedItem
  else (s.openBlock s.column s.count .blockList).sign .item true

def explicitKey (s : Lexing) : Except Fault Lexing :=
  if s.flow then s.sign .key false
  else if !s.keyAllowed then .error .misplacedKey
  else (s.openBlock s.column s.count .blockMap).sign .key true

/-- A colon. What may be a key is one now. -/
def value (s : Lexing) : Except Fault Lexing :=
  match s.candidate with
  | some c =>
    let s := (s.insert c.number .key).openBlock c.position.column c.number .blockMap
    .ok { (s.push .value).advance 1 with keyAllowed := false, candidate := none }
  | none =>
    if s.flow then .ok { (s.push .value).advance 1 with keyAllowed := false }
    else if !s.keyAllowed then .error .misplacedValue
    else
      let s := s.openBlock s.column s.count .blockMap
      .ok { (s.push .value).advance 1 with keyAllowed := true }

/-- A name, tag or text that may be a key. -/
def named (s : Lexing) (read : Cursor → Except Fault (Token × Cursor)) : Except Fault Lexing := do
  let s ← s.markCandidate
  let (t, cursor) ← read s.cursor
  pure { s.push t with cursor, keyAllowed := false }

/-- A plain text; behind a line end a key is allowed again. -/
def plainText (s : Lexing) : Except Fault Lexing := do
  let s ← s.markCandidate
  let x := plain s.version s.flow (s.indent + 1) s.cursor
  pure { s.push (Scalar.token true x) with cursor := x.after, keyAllowed := x.crossed }

def blockScalar (s : Lexing) (literal : Bool) : Except Fault Lexing := do
  let s ← s.dropCandidate
  let x ← blockText literal s.indent s.cursor.skip
  pure { s.push (Scalar.token false x) with cursor := x.after, keyAllowed := true }

/-- A mark for the bounds of the document, or a directive, closes all blocks. -/
def documentPart (s : Lexing) (read : Cursor → Except Fault (Token × Cursor)) : Except Fault Lexing := do
  let s ← (s.closeBlocks (-1)).dropCandidate
  let (t, cursor) ← read s.cursor
  pure { s.push t with cursor, keyAllowed := false }

/-- A directive. Behind one for the version, the rules of that version hold. -/
def directive (s : Lexing) : Except Fault Lexing := do
  let s ← s.documentPart directiveAt
  match s.tokens with
  | .version major minor :: _ => pure { s with version := if major = 1 ∧ minor = 1 then .v11 else .v12 }
  | _ => pure s

/-- The end closes all blocks. -/
def finish (s : Lexing) : Except Fault Lexing := do
  let s ← (s.closeBlocks (-1)).dropCandidate
  pure { s with finished := true }

/-- Whether a colon that `next` follows parts a key from its value. In brackets of the newer version a colon within a
word does so only in a map, and not directly behind such a colon when a key is still being looked for. -/
def partsValue (s : Lexing) (held : Bool) (next : Option Char) : Bool :=
  endsWord next ||
    match s.brackets with
    | [] => false
    | b :: _ => s.version = .v11 || (!b.isList && !(held && s.tokens.head? = some .value))

/-- Whether a plain text can begin with a character that `next` follows. -/
def beginsPlain (s : Lexing) (c : Char) (next : Option Char) : Bool :=
  let signs := ['-', '?', ':', ',', '[', ']', '\x7b', '\x7d', '#', '&', '*', '!', '|', '>', '\'', '"', '%', '@', '`']
  !(endsWord (some c) || signs.contains c) ||
    (!endsWord next && (c = '-' || (!s.flow && (c = '?' || c = ':')) || (s.flow && c = ':' && s.version = .v12)))

/-- Cuts off the part that begins with `c`; `held` says that an earlier part may still turn out to be a key. -/
def part (s : Lexing) (held : Bool) (c : Char) (r : List Char) : Except Fault Lexing :=
  let apart := endsWord r.head?
  if c = '%' && s.column = 0 then s.directive
  else if s.column = 0 && isMarker '-' (c :: r) then s.documentPart fun c => .ok (.documentStart, c.skipN 3)
  else if s.column = 0 && isMarker '.' (c :: r) then s.documentPart fun c => .ok (.documentEnd, c.skipN 3)
  else if c = '[' then s.openFlow true
  else if c = '\x7b' then s.openFlow false
  else if c = ']' then s.closeFlow .flowListEnd
  else if c = '\x7d' then s.closeFlow .flowMapEnd
  else if c = ',' then s.sign .comma true
  else if c = '-' && apart then s.item
  else if c = '?' && (s.flow || apart) then s.explicitKey
  else if c = ':' && s.partsValue held r.head? then s.value
  else if c = '*' then s.named fun c => (anchorName c.skip).map fun n => (.alias n.1, n.2)
  else if c = '&' then s.named fun c => (anchorName c.skip).map fun n => (.anchor n.1, n.2)
  else if c = '!' then s.named (tagAt s.version)
  else if c = '|' && !s.flow then s.blockScalar true
  else if c = '>' && !s.flow then s.blockScalar false
  else if c = '\'' then s.named fun c => (singleQuoted c.skip).map fun x => (Scalar.token false x, x.after)
  else if c = '"' then s.named fun c => (doubleQuoted c.skip).map fun x => (Scalar.token false x, x.after)
  else if s.beginsPlain c r.head? then s.plainText
  else .error .strayCharacter

/-- Cuts off the next part, with the bounds of blocks before it. -/
def step (s : Lexing) : Except Fault Lexing := do
  let s ← s.dropStale
  let held := !s.candidates.isEmpty
  let s ← s.toNext.dropStale
  let s := s.closeBlocks s.column
  match s.cursor.rest with
  | [] => s.finish
  | c :: r => s.part held c r

/-- The parts that are known not to change: those before the first that may still turn out to be a key. -/
def settled (s : Lexing) : List Token :=
  match (s.candidates.map (·.number)).min? with
  | some n => s.tokens.reverse.take n
  | none => s.tokens.reverse

/-- The parts of a text up to the first faulty one, and what is wrong with that. -/
structure Parts where
  tokens : List Token
  fault : Option Fault := none

/-- Cuts off at most `n` parts. -/
def steps : (n : Nat) → Lexing → Parts
  | 0, s => ⟨s.tokens.reverse, none⟩
  | n + 1, s =>
    if s.finished then ⟨s.tokens.reverse, none⟩
    else match s.step with
      | .ok s => steps n s
      | .error f => ⟨(s.dropStale.toOption.getD s).settled, some f⟩

def isAllowed (c : Char) : Bool :=
  let n := c.toNat
  n = 9 || n = 10 || n = 13 || (32 ≤ n && n ≤ 126) || n = 0x85 || (0xA0 ≤ n && n ≤ 0xFFFD) || 0x10000 ≤ n

/-- The place of the first part: a byte order mark at the beginning of a text does not count. -/
def start (s : List Char) : Cursor :=
  let c : Cursor := { rest := s }
  if c.head? = some byteOrderMark then c.skip else c

/-- The parts of a text. Every step but the last passes a character. -/
def ofText (s : List Char) : Parts :=
  if s.all isAllowed then steps (s.length + 1) { cursor := start s } else ⟨[], some .controlCharacter⟩

end Lexing
end Plotline.Yaml
