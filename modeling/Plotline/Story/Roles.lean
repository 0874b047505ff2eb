import Plotline.Story.References

/-!
# What blocks are for

* `dialogue?`: whether a line is spoken, and by whom.
* `ContentTag`: what kinds of lines a block has.
* `Roles`: roots, leaves and branching blocks; the parts story, screen-only and configuration; tags.
* `Roles.ofBlocks`: the roles of all blocks, ignored ones included.
-/

namespace Plotline
open Script

/-- Whether a line is spoken, and the tag of the character who speaks. A line that opens with a string is spoken by
nobody in particular. -/
def dialogue? (isTag : String → Bool) (line : List Char) : Option (Option String) :=
  match (speaker? line).map (fun s => String.ofList s.1) |>.filter isTag with
  | some tag => some (some tag)
  | none => (narration? line).map fun _ => none

/-- What kinds of lines a block has. -/
inductive ContentTag where
  | dialogue
  | jump
  | label
  | menu
  | code
deriving DecidableEq, Repr

namespace ContentTag

def word : ContentTag → String
  | dialogue => "dialogue"
  | jump => "jump"
  | label => "label"
  | menu => "menu"
  | code => "python"

def all : List ContentTag := [dialogue, jump, label, menu, code]

end ContentTag

def lineHas (isTag : String → Bool) (line : List Char) : ContentTag → Bool
  | .dialogue => (dialogue? isTag line).isSome
  | .jump => false
  | .label => (labelHeader? line).isSome
  | .menu => (menuHeader? line).isSome
  | .code => (codeHeader? line).isSome

/-- The tags of a text with the given jumps, by their words. -/
def contentTags (content : String) (hasJumps : Bool) (isTag : String → Bool) : List ContentTag :=
  let ls := Text.lines content.toList
  ContentTag.all.filter fun tag => (tag = .jump && hasJumps) || ls.any (lineHas isTag · tag)

/-- What the blocks of a project are for. -/
structure Roles where
  /-- No link leads here. -/
  roots : NameSet := ∅
  /-- No jump starts here. -/
  leaves : NameSet := ∅
  /-- The story may go on in more than one way. -/
  branching : NameSet := ∅
  story : NameSet := ∅
  screenOnly : NameSet := ∅
  config : NameSet := ∅
  /-- The tags of each block that has some. -/
  tags : Table String (List ContentTag) := ∅

namespace Roles

/-- The three parts that a project falls into. -/
inductive Part where
  | story
  | screenOnly
  | config
deriving DecidableEq, Repr

/-- The part that a block belongs to: a block with a label or on a story path is story. -/
def partOf (t : Tables) (settings : AnalysisSettings) (b : Block) : Part :=
  if t.labels.values.any (·.block = b.id) || t.firstLabels.contains b.id || settings.isStoryPath b.path then .story
  else if t.screens.values.any (·.block = b.id) then .screenOnly
  else .config

def targetBlocks (t : Tables) (jumps : List Jump) : NameSet :=
  NameSet.ofList (jumps.filterMap fun j => if j.dynamic then none else (t.labels.get? j.target).map (·.block))

/-- The story may go on in more than one way behind a block. -/
def isBranching (t : Tables) (refs : References) (b : Block) : Bool :=
  1 < (targetBlocks t (refs.jumps.getD b.id [])).size || (t.hasScanned b.id && b.hasMenu)

/-- Adds a block to a set if a condition holds. -/
def insertIf (p : Bool) (s : NameSet) (id : String) : NameSet := if p then s.insert id else s

def add (t : Tables) (refs : References) (settings : AnalysisSettings) (r : Roles) (b : Block) : Roles :=
  let jumps := refs.jumps.getD b.id []
  let part := partOf t settings b
  let tags := if t.hasScanned b.id then contentTags b.content (!jumps.isEmpty) t.characters.contains else []
  { roots := insertIf (!refs.links.any (·.target = b.id)) r.roots b.id
    leaves := insertIf jumps.isEmpty r.leaves b.id
    branching := insertIf (isBranching t refs b) r.branching b.id
    story := insertIf (part = .story) r.story b.id
    screenOnly := insertIf (part = .screenOnly) r.screenOnly b.id
    config := insertIf (part = .config) r.config b.id
    tags := if tags.isEmpty then r.tags else r.tags.insert b.id tags }

def ofBlocks (blocks : List Block) (t : Tables) (refs : References) (settings : AnalysisSettings) : Roles :=
  blocks.foldl (add t refs settings) {}

end Roles
end Plotline
