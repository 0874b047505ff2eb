import Plotline.Route.Analysis

/-!
# Reports

* `Diagnostic`: something about a project that is worth a look.
* `CharacterStats`: how much a character says.
* `complexity`: how much a story branches, from one to ten.
* `Report.of`: the report on an analysis.
-/

namespace Plotline
open Script

/-- Something about a project that is worth a look. -/
inductive Diagnostic where
  /-- A jump or call names a label that does not exist. -/
  | unresolved (block target : String)
  /-- A jump or call goes where only a running script knows. -/
  | dynamicJump (block : String) (kind : JumpKind) (line : Int)
  /-- A character says nothing. -/
  | unusedCharacter (tag name block : String)
deriving DecidableEq, Repr

namespace Diagnostic

def isWarning : Diagnostic → Bool
  | unresolved .. => true
  | _ => false

/-- How much weight it has, in a word. -/
def severity (d : Diagnostic) : String := if d.isWarning then "warn" else "info"

def code : Diagnostic → String
  | unresolved .. => "unresolved_reference"
  | dynamicJump .. => "dynamic_jump"
  | unusedCharacter .. => "unused_character"

def message : Diagnostic → String
  | unresolved _ target => "Jump or call to undefined label '" ++ target ++ "'"
  | dynamicJump _ kind line => "Dynamic " ++ kind.keyword ++ " on line " ++ toString line ++ " cannot be followed"
  | unusedCharacter tag name _ => "Character '" ++ tag ++ "' (" ++ name ++ ") never speaks"

def block : Diagnostic → String
  | unresolved b _ => b
  | dynamicJump b _ _ => b
  | unusedCharacter _ _ b => b

end Diagnostic

/-- How much a character says. -/
structure CharacterStats where
  tag : String
  name : String
  color : String
  lines : Nat
  words : Nat
deriving DecidableEq, Repr

structure Report where
  blocks : Nat
  roles : Roles
  labels : Nat
  jumps : Nat
  links : Nat
  blockWords : Table String Nat
  /-- The characters who say most first. -/
  characters : List CharacterStats
  /-- The blocks with the targets that no label has. -/
  unresolved : List (String × String)
  routes : Nat
  /-- The number of links of the longest route. -/
  longest : Nat
  complexity : Nat
  diagnostics : List Diagnostic

/-- A number that is not negative, rounded to a whole one; a half goes to the even neighbour. -/
def Number.rounded (x : Float) : Nat :=
  match parts x with
  | .finite _ mantissa exponent =>
    if 0 ≤ exponent then mantissa * power 2 exponent.toNat else roundQuotient mantissa (power 2 (-exponent).toNat)
  | _ => 0

/-- How much a story branches: branching blocks count one and a half and routes two, in relation to the labels. -/
def complexity (branching routes labels : Nat) : Nat :=
  let weight := Float.ofNat branching * 1.5 + Float.ofNat (routes * 2)
  min 10 (max 1 (Number.rounded (weight / Float.ofNat (max 1 labels) * 5)))

namespace Report

def wordTable (blocks : List Block) : Table String Nat :=
  Table.ofList (blocks.map fun b => (b.id, wordCount b.content.toList))

def wordsInLine (ls : List (List Char)) (number : Int) : Nat :=
  if number ≤ 0 then 0 else ((ls[number.toNat - 1]?).map wordCount).getD 0

/-- Every spoken line of blocks that are at hand: who speaks it, and its number of words. -/
def spokenLines (blocks : List Block) (dialogue : Table String (List DialogueLine)) : List (String × Nat) :=
  let known := Table.ofList (blocks.map fun b => (b.id, b))
  dialogue.entries.flatMap fun (id, entries) =>
    match known.get? id with
    | none => []
    | some b =>
      let ls := Text.lines b.content.toList
      entries.map fun e => (e.tag, wordsInLine ls e.line)

/-- The first of two characters says more lines, or as many lines with more words, or comes first by its tag. -/
def saysMore (a b : CharacterStats) : Bool :=
  if a.lines ≠ b.lines then decide (b.lines < a.lines)
  else if a.words ≠ b.words then decide (b.words < a.words)
  else decide (a.tag ≤ b.tag)

/-- The characters who say most first. -/
def characterStats (blocks : List Block) (a : Analysis) : List CharacterStats :=
  let spoken := spokenLines blocks a.usage.dialogue
  let stats := a.tables.characters.entries.map fun (tag, c) =>
    { tag, name := c.name, color := c.color, lines := a.usage.spoken.getD tag 0
      words := Number.total ((spoken.filter (·.1 = tag)).map (·.2)) : CharacterStats }
  stats.mergeSort saysMore

/-- The targets without a label, block by block. -/
def unresolvedOf (blocks : List Block) (a : Analysis) : List (String × String) :=
  blocks.flatMap fun b => (a.references.invalid.getD b.id []).map fun target => (b.id, target)

/-- What is worth a look: missing labels, then computed jumps, then silent characters. -/
def diagnose (blocks : List Block) (a : Analysis) : List Diagnostic :=
  let missing := (unresolvedOf blocks a).map fun (b, target) => Diagnostic.unresolved b target
  let computed := blocks.flatMap fun b =>
    ((a.references.jumps.getD b.id []).filter (·.dynamic)).map fun j => Diagnostic.dynamicJump b.id j.kind j.line
  let silent := a.tables.characters.entries.filterMap fun (tag, c) =>
    if a.usage.spoken.getD tag 0 = 0 then some (Diagnostic.unusedCharacter tag c.name c.block) else none
  missing ++ computed ++ silent

/-- The report on an analysis; the words are counted in `blocks`. -/
def of (blocks : List Block) (a : Analysis) (r : RouteAnalysis) : Report :=
  { blocks := blocks.length
    roles := a.roles
    labels := a.tables.labels.size
    jumps := a.jumpCount
    links := a.references.links.length
    blockWords := wordTable blocks
    characters := characterStats blocks a
    unresolved := unresolvedOf blocks a
    routes := r.routes.length
    longest := (r.routes.map (·.links.size)).foldl max 0
    complexity := Plotline.complexity a.roles.branching.size r.routes.length a.tables.labels.size
    diagnostics := diagnose blocks a }

def words (r : Report) : Nat := Number.total r.blockWords.values

def warnings (r : Report) : Nat := r.diagnostics.countP (·.isWarning)

end Report

def Diagnostic.toData (d : Diagnostic) : Data :=
  .ofTable [("severity", .text d.severity), ("code", .text d.code), ("message", .text d.message),
    ("block_id", .text d.block)]

def CharacterStats.toData (s : CharacterStats) : Data :=
  .ofTable [("tag", .text s.tag), ("name", .text s.name), ("color", .text s.color), ("lines", .ofNat s.lines),
    ("words", .ofNat s.words)]

def Roles.countData (r : Roles) : Data :=
  .ofTable [("story", .ofNat r.story.size), ("screen_only", .ofNat r.screenOnly.size),
    ("config", .ofNat r.config.size), ("root", .ofNat r.roots.size), ("leaf", .ofNat r.leaves.size),
    ("branching", .ofNat r.branching.size)]

def Report.toData (r : Report) : Data :=
  .ofTable [("total_blocks", .ofNat r.blocks), ("partitions", r.roles.countData), ("label_count", .ofNat r.labels),
    ("jump_count", .ofNat r.jumps), ("link_count", .ofNat r.links), ("total_words", .ofNat r.words),
    ("block_words", r.blockWords.toData Data.ofNat),
    ("characters", .list (r.characters.map CharacterStats.toData)),
    ("unresolved", .list (r.unresolved.map fun u => .texts [u.1, u.2])), ("route_count", .ofNat r.routes),
    ("longest_route", .ofNat r.longest), ("complexity", .ofNat r.complexity),
    ("diagnostics", .list (r.diagnostics.map Diagnostic.toData)), ("warnings", .ofNat r.warnings)]

end Plotline
