import Plotline.Record

/-!
# Blocks

* `Block`: a piece of script text that is edited on its own.
* `Block.ofData`: a block from untyped data, or every fault of it.
* `Block.caption`: the title of a block, else the last part of its path.
-/

namespace Plotline

/-- A piece of script text. -/
structure Block where
  /-- What other blocks know it by. -/
  id : String
  /-- The script text. -/
  content : String
  /-- Where the text is kept. -/
  path : Option String := none
  /-- The title that its owner gave it. -/
  title : Option String := none
  /-- The size in a picture, as far as it is known. -/
  width : Option FloatObject := none
  height : Option FloatObject := none

namespace Block

/-- The name under which the path of a block is given; a map may use either. -/
def pathField (es : List (Data × Data)) : String :=
  if (Record.get? "file_path" es).isNone && (Record.get? "filePath" es).isSome then "filePath" else "file_path"

/-- The block that a map of fields describes. A session may check blocks in any other way; this is how it does so if
nothing else is asked for. -/
def ofData (d : Data) : Checked Block := do
  let es ← Record.fields d
  let block : Checked (String → String → Option String → Option String → Option FloatObject → Option FloatObject →
      Block) := .ok Block.mk
  block.with (Record.field Record.filledText es "id")
    |>.with (Record.fieldD Record.text "" es "content")
    |>.with (Record.fieldD (Record.optional Record.text) none es (pathField es))
    |>.with (Record.fieldD (Record.optional Record.text) none es "title")
    |>.with (Record.fieldD (Record.optional Record.float) none es "width")
    |>.with (Record.fieldD (Record.optional Record.float) none es "height")

/-- The blocks that a list of maps describes; the first faulty one stands for all. -/
def ofDataList (ds : List Data) : Checked (List Block) := ds.mapM ofData

/-- The part of a path behind its last slash of either kind. -/
def baseName (path : List Char) : List Char :=
  (path.reverse.takeWhile fun c => c ≠ '/' && c ≠ '\\').reverse

/-- What a picture calls the block. -/
def caption (b : Block) : String :=
  match b.title.filter (!·.isEmpty), b.path.filter (!·.isEmpty) with
  | some t, _ => t
  | none, some p => String.ofList (baseName p.toList)
  | none, none => "Untitled"

def toData (b : Block) : Data :=
  .ofTable [("id", .text b.id), ("content", .text b.content), ("file_path", .ofText? b.path),
    ("title", .ofText? b.title), ("width", (b.width.map Data.float).getD .null),
    ("height", (b.height.map Data.float).getD .null)]

end Block
end Plotline
