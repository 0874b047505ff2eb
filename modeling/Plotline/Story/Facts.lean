import Plotline.Block
import Plotline.Script.Character
import Plotline.Script.Definition
import Plotline.Script.Header
import Plotline.Script.Jump
import Plotline.Script.Speech

/-!
# What a block says by itself

* `LabelSite`, `Variable`, `Screen`: a label or named menu, a variable and a screen, each with the line that defines it.
* `Jump`: a jump or call with its line and columns.
* `BlockFacts`: the labels, characters, variables, screens and images of a block, in order.
* `Block.facts`, `Block.jumps`: what a block defines, and where it goes.

Lines and the columns of labels count from one, the columns of jumps from zero.
-/

namespace Plotline
open Script

inductive LabelKind where
  | label
  | menu
deriving DecidableEq, Repr

namespace LabelKind

def keyword : LabelKind → String
  | label => "label"
  | menu => "menu"

def ofKeyword? (s : String) : Option LabelKind :=
  if s = "label" then some label else if s = "menu" then some menu else none

end LabelKind

/-- Where a label or named menu is defined. -/
structure LabelSite where
  block : String
  label : String
  line : Int
  column : Int
  kind : LabelKind
deriving DecidableEq, Repr

/-- A jump or call in a block. -/
structure Jump where
  block : String
  target : String
  line : Int
  columnStart : Int
  columnEnd : Int
  kind : JumpKind
  /-- The target is computed when the script runs. -/
  dynamic : Bool
deriving DecidableEq, Repr

/-- A variable with its first value as it is written. -/
structure Variable where
  kind : VariableKind
  name : String
  value : String
  block : String
  line : Int
deriving DecidableEq, Repr

/-- A screen with its parameter list as it is written. -/
structure Screen where
  name : String
  parameters : String
  block : String
  line : Int
deriving DecidableEq, Repr

/-- What a block defines, each kind in the order of its lines. -/
structure BlockFacts where
  block : String
  labels : List LabelSite
  characters : List Character
  vars : List Variable
  screens : List Screen
  images : List String

def BlockFacts.firstLabel (f : BlockFacts) : Option String :=
  (f.labels.find? (·.kind = .label)).map (·.label)

namespace Block

def numberedLines (b : Block) : List (List Char × Nat) := (Text.lines b.content.toList).zipIdx 1

def labelSites (b : Block) (line : List Char) (number : Nat) : List LabelSite :=
  let label := (labelHeader? line).map fun h => ⟨b.id, h.name, number, h.column + 1, LabelKind.label⟩
  let menu := (namedMenuHeader? line).map fun h => ⟨b.id, h.name, number, h.column + 1, LabelKind.menu⟩
  label.toList ++ menu.toList

def screenSite? (b : Block) (line : List Char) (number : Nat) : Option Screen :=
  (screenHeader? line).map fun h => ⟨h.name, h.parameters.getD "", b.id, number⟩

def variableSite? (b : Block) (line : List Char) (number : Nat) : Option Variable :=
  (definition? line).map fun d => ⟨d.kind, d.name, String.ofList (Text.trim d.value), b.id, number⟩

/-- The name of the image that a line defines, its words parted by single spaces. -/
def imageName? (line : List Char) : Option String :=
  (imageDefinition? line).map fun (name, _) => " ".intercalate ((Text.words name).map String.ofList)

def facts (b : Block) : BlockFacts :=
  let ls := b.numberedLines
  { block := b.id
    labels := ls.flatMap fun l => b.labelSites l.1 l.2
    characters := charactersIn b.content.toList b.id
    vars := ls.filterMap fun l => b.variableSite? l.1 l.2
    screens := ls.filterMap fun l => b.screenSite? l.1 l.2
    images := ls.filterMap fun l => imageName? l.1 }

/-- The jumps and calls of the block, from top to bottom and left to right. -/
def jumps (b : Block) : List Jump :=
  b.numberedLines.flatMap fun l => (jumpsIn l.1).map fun j =>
    ⟨b.id, j.target, l.2, j.start, j.stop, j.kind, j.dynamic⟩

def hasMenu (b : Block) : Bool := (Text.lines b.content.toList).any fun l => (menuHeader? l).isSome

end Block

def LabelSite.ofData (d : Data) : Checked LabelSite := do
  let es ← Record.fields d
  let site : Checked (String → String → Int → Int → LabelKind → LabelSite) := .ok LabelSite.mk
  site.with (Record.field Record.text es "block_id")
    |>.with (Record.field Record.text es "label")
    |>.with (Record.field Record.whole es "line")
    |>.with (Record.field Record.whole es "column")
    |>.with (Record.fieldD (Record.choice LabelKind.ofKeyword?) .label es "type")

def Script.JumpKind.ofKeyword? (s : String) : Option JumpKind :=
  if s = "jump" then some .jump else if s = "call" then some .call else none

def Jump.ofData (d : Data) : Checked Jump := do
  let es ← Record.fields d
  let jump : Checked (String → String → Int → Int → Int → JumpKind → Bool → Jump) := .ok Jump.mk
  jump.with (Record.field Record.text es "block_id")
    |>.with (Record.field Record.text es "target")
    |>.with (Record.field Record.whole es "line")
    |>.with (Record.field Record.whole es "column_start")
    |>.with (Record.field Record.whole es "column_end")
    |>.with (Record.field (Record.choice JumpKind.ofKeyword?) es "type")
    |>.with (Record.fieldD Record.truth false es "is_dynamic")

end Plotline
