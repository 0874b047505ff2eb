/-!
# Paths

* `FileName`: the name of a file in its folder.
* `Path`: a way from the current folder, or from the top, to a file; `Path.ofText` and `Path.toText`.
* `Path.locate`: the place that a path leads to, whether anything is there or not.
-/

namespace Plotline.Files

/-- The name of a file or folder: it is not empty and has no slash. -/
structure FileName where
  text : String
  valid : text ≠ "" ∧ '/' ∉ text.toList
deriving DecidableEq

namespace FileName

def ofText? (s : String) : Option FileName := if h : s ≠ "" ∧ '/' ∉ s.toList then some ⟨s, h⟩ else none

/-- The name for the folder above. -/
def above : FileName := ⟨"..", by decide⟩

end FileName

/-- A place in the tree of all files: the names from the top down. -/
abbrev Place := List FileName

/-- A way through the tree of files. -/
structure Path where
  /-- The slashes it begins with: none if it begins at the current folder. -/
  root : String := ""
  names : List FileName
deriving DecidableEq

def pieces (opened : List Char) : List Char → List String
  | [] => [String.ofList opened.reverse]
  | c :: r => if c = '/' then String.ofList opened.reverse :: pieces [] r else pieces (c :: opened) r

def joined (names : List FileName) : String := "/".intercalate (names.map (·.text))

namespace Path

/-- The slashes a path begins with: exactly two stay two, any other number counts as one. -/
def rootOf : List Char → String
  | '/' :: '/' :: '/' :: _ => "/"
  | '/' :: '/' :: _ => "//"
  | '/' :: _ => "/"
  | _ => ""

/-- The path that a text spells; empty names and single dots lead nowhere. -/
def ofText (s : String) : Path :=
  { root := rootOf s.toList
    names := (pieces [] s.toList).filterMap fun p => if p = "." then none else FileName.ofText? p }

/-- The spelling of a path; the current folder is a dot. -/
def toText (p : Path) : String :=
  if p.root.isEmpty && p.names.isEmpty then "." else p.root ++ joined p.names

def parent (p : Path) : Path := { p with names := p.names.dropLast }

def child (p : Path) (name : FileName) : Path := { p with names := p.names ++ [name] }

/-- One name further on from a place; two dots lead up, except from the top. -/
def enter (place : Place) (name : FileName) : Place :=
  if name = .above then place.dropLast else place ++ [name]

/-- Where a path begins, seen from the current folder. -/
def start (here : Place) (p : Path) : Place := if p.root.isEmpty then here else []

/-- The place that a path leads to from the current folder, whether anything is there or not. -/
def locate (here : Place) (p : Path) : Place := p.names.foldl enter (p.start here)

end Path
end Plotline.Files
