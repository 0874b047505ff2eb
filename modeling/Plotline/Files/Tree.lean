import Plotline.Files.Path
import Plotline.Table

/-!
# Trees of files

* `FileTree`: files with their bytes, folders, and the current folder.
* `FileTree.walk?`: the place that a path leads to, if every step of it is there.
* `FileTree.look`: what a path leads to.
* `FileTree.touch?`: the tree with a file that can be written.
* `FileTree.search`: the ways from a folder to what is below it under certain names, files and folders alike.
-/

namespace Plotline.Files

abbrev Bytes := List UInt8

structure FileTree where
  files : Table Place Bytes := ∅
  /-- Folders; those on the way to a file need not be named. -/
  folders : List Place := []
  /-- The current folder. -/
  here : Place := []

/-- What a path leads to. -/
inductive Found where
  | nothing
  | file (content : Bytes)
  | folder (place : Place)

namespace FileTree

def hasFolder (t : FileTree) (place : Place) : Bool :=
  place.isPrefixOf t.here || t.folders.any (fun f => place.isPrefixOf f) ||
    t.files.keys.any (fun f => place.isPrefixOf f.dropLast && !f.isEmpty)

/-- Follows names from a place; a name only leads on from a folder. -/
def follow? (t : FileTree) (place : Place) : List FileName → Option Place
  | [] => some place
  | name :: names => if t.hasFolder place then t.follow? (Path.enter place name) names else none

/-- The place that a path leads to, if every step but the last is a folder. -/
def walk? (t : FileTree) (p : Path) : Option Place := t.follow? (p.start t.here) p.names

def look (t : FileTree) (p : Path) : Found :=
  match t.walk? p with
  | none => .nothing
  | some place =>
    match t.files.get? place with
    | some content => .file content
    | none => if t.hasFolder place then .folder place else .nothing

/-- The tree with a file that can be written at a path: a new one is empty, and folders on the way to it are made.
There is none if a folder is in its place, or a file on its way. -/
def touch? (t : FileTree) (p : Path) : Option FileTree :=
  let place := p.locate t.here
  if t.hasFolder place || t.files.keys.any (fun f => f.isPrefixOf place.dropLast) then none
  else some { t with files := t.files.insertNew place [] }

def restBelow? : (folder place : Place) → Option Place
  | [], place => some place
  | _ :: _, [] => none
  | a :: as, b :: bs => if a = b then restBelow? as bs else none

/-- The places that a place is below, and itself. -/
def upwards (place : Place) : List Place := (List.range (place.length + 1)).map place.take

/-- The ways from a folder to everything below it whose name is of a kind, be it a file or a folder. -/
def search (t : FileTree) (folder : Place) (named : FileName → Bool) : List Place :=
  let places := (t.here :: t.folders ++ t.files.keys).flatMap upwards
  ((places.filterMap (restBelow? folder)).filter fun way => way.getLast?.any named).eraseDups

end FileTree

/-- Of two places the one whose first different name comes first, or the one that is the beginning of the other. -/
def Place.le : Place → Place → Bool
  | [], _ => true
  | _ :: _, [] => false
  | a :: as, b :: bs => if a = b then Place.le as bs else decide (a.text < b.text)

end Plotline.Files
