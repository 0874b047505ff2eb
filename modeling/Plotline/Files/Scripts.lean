import Plotline.Block
import Plotline.Files.Tree
import Plotline.Text.Utf8

/-!
# Scripts in files

* `LoadError`: why scripts cannot be read.
* `FileTree.scripts`: the script files below a folder, in the order of their places.
* `FileTree.loadBlocks`: one block for every script file that a path leads to.
-/

namespace Plotline.Files
open Text

/-- Why scripts cannot be read. -/
inductive LoadError where
  /-- The path leads to nothing. -/
  | notFound (path : Path)
  /-- The bytes of a file are no text. -/
  | undecodable (fault : Utf8.Fault)

def LoadError.message : LoadError → String
  | notFound p => "No such file or directory: " ++ p.toText
  | undecodable f => f.message

def FileName.isScript (n : FileName) : Bool := ".rpy".toList.isSuffixOf n.text.toList

/-- The text of a file without a byte order mark. Its line ends are unified as it is read, and merged once more. -/
def scriptText (content : Bytes) : Except Utf8.Fault (List Char) :=
  (Utf8.decodeMarked content).map fun s => mergeLineEnds (unifyLineEnds s)

/-- The block of a script file; it is known by its way from the folder of all scripts. -/
def scriptBlock (way : Place) (content : Bytes) : Except LoadError Block :=
  match scriptText content with
  | .ok s =>
    .ok { id := joined way, content := String.ofList s, path := some (joined way), title := way.getLast?.map (·.text) }
  | .error f => .error (.undecodable f)

/-- The script files below a folder with their ways from it, in the order of their names; a folder of such a name is no
script file. -/
def FileTree.scripts (t : FileTree) (folder : Place) : List (Place × Bytes) :=
  let files := (t.search folder FileName.isScript).filterMap fun way =>
    (t.files.get? (folder ++ way)).map fun content => (way, content)
  files.mergeSort fun a b => Place.le a.1 b.1

/-- Blocks with the path of the folder that they are in. -/
structure Scripts where
  root : Path
  blocks : List Block

/-- The blocks of all scripts below a folder, or of a single file of any name. -/
def FileTree.loadBlocks (t : FileTree) (p : Path) : Except LoadError Scripts :=
  match t.look p with
  | .nothing => .error (.notFound p)
  | .file content => do
    let b ← scriptBlock p.names.getLast?.toList content
    pure ⟨p.parent, [b]⟩
  | .folder place => do
    let blocks ← (t.scripts place).mapM fun e => scriptBlock e.1 e.2
    pure ⟨p, blocks⟩

end Plotline.Files
