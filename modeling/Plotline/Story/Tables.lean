import Plotline.NameSet
import Plotline.Project.Settings
import Plotline.Story.Facts
import Plotline.Table

/-!
# What all blocks define together

* `Tables`: labels, characters, variables, screens and images of all blocks.
* `register`: a label enters the table; the last definition counts, but a menu never hides a plain label.
* `Tables.add`: the facts of one more block.
* `Tables.ofBlocks`: the tables of all blocks that are not ignored.
-/

namespace Plotline
open Script

/-- What the blocks of a project define. -/
structure Tables where
  /-- Where each label is defined. -/
  labels : Table String LabelSite := ∅
  /-- The first plain label of each block that has one. -/
  firstLabels : Table String String := ∅
  /-- The characters by tag; the last definition counts. -/
  characters : Table String Character := ∅
  /-- The variables by name; the last definition counts. -/
  vars : Table String Variable := ∅
  /-- The screens by name; the last definition counts. -/
  screens : Table String Screen := ∅
  images : NameSet := ∅
  /-- The blocks that were read, in order. -/
  scanned : List String := []

/-- Enters a label; a named menu never replaces a plain label of its name. -/
def register (labels : Table String LabelSite) (site : LabelSite) : Table String LabelSite :=
  if site.kind = .menu && (labels.get? site.label).any (·.kind = .label) then labels
  else labels.insert site.label site

namespace Tables

def add (t : Tables) (f : BlockFacts) : Tables :=
  { labels := f.labels.foldl register t.labels
    firstLabels := match f.firstLabel with
      | some l => t.firstLabels.insert f.block l
      | none => t.firstLabels
    characters := f.characters.foldl (fun cs c => cs.insert c.tag c) t.characters
    vars := f.vars.foldl (fun vs v => vs.insert v.name v) t.vars
    screens := f.screens.foldl (fun ss s => ss.insert s.name s) t.screens
    images := t.images.insertAll f.images
    scanned := t.scanned ++ [f.block] }

/-- Takes out the variables whose name is the tag of a character. -/
def dropTags (t : Tables) : Tables :=
  { t with vars := t.vars.filter fun name _ => !t.characters.contains name }

def ofBlocks (blocks : List Block) (settings : AnalysisSettings) : Tables :=
  let read := blocks.filter fun b => !settings.ignores b.path
  (read.foldl (fun t b => t.add b.facts) ({} : Tables)).dropTags

/-- The block was read. -/
def hasScanned (t : Tables) (block : String) : Bool := t.scanned.contains block

end Tables
end Plotline
