import Plotline.Story.Tables

/-!
# Where jumps lead

* `Link`: one block leads to another.
* `References`: the jumps of every block, the links, and the targets that no label has.
* `References.ofBlocks`: each static jump names no label, a label of its own block, or a label of another block; the
  first adds an invalid target, the last a link.
-/

namespace Plotline

/-- One block leads to another. -/
structure Link where
  source : String
  target : String
  /-- The target of the first jump between the two. -/
  label : String
deriving DecidableEq, Repr

/-- Where the jumps of a project lead. -/
structure References where
  /-- The jumps of each block that was read, in order. -/
  jumps : Table String (List Jump) := ∅
  /-- The first link between each two blocks. -/
  linkTable : Table (String × String) Link := ∅
  /-- The targets without a label, in order of first occurrence; only for blocks that have some. -/
  invalid : Table String (List String) := ∅

namespace References

/-- The links, in order of first occurrence. -/
def links (r : References) : List Link := r.linkTable.values

def addInvalid (r : References) (block target : String) : References :=
  let known := r.invalid.getD block []
  { r with invalid := r.invalid.insert block (if known.contains target then known else known ++ [target]) }

def follow (labels : Table String LabelSite) (block : String) (r : References) (j : Jump) : References :=
  if j.dynamic then r
  else match labels.get? j.target with
    | none => r.addInvalid block j.target
    | some site =>
      if site.block = block then r
      else { r with linkTable := r.linkTable.insertNew (block, site.block) ⟨block, site.block, j.target⟩ }

def addBlock (labels : Table String LabelSite) (r : References) (b : Block) : References :=
  b.jumps.foldl (follow labels b.id) { r with jumps := r.jumps.insert b.id b.jumps }

def ofBlocks (blocks : List Block) (t : Tables) : References :=
  (blocks.filter fun b => t.hasScanned b.id).foldl (addBlock t.labels) {}

end References
end Plotline
