import Plotline.Data.Basic

/-!
# Settings

* `AnalysisSettings`: which blocks count as story or not at all, and how many routes are listed at most.
* `AnalysisSettings.ignores`: whether a path ends with an ignored suffix.
* `LayoutSettings`: distances and sizes in a picture.
* `LayoutSettings.nodeSize`: the size of a node, with missing or degenerate sizes replaced.
* `Settings`: all settings of a project.
-/

namespace Plotline

/-- Settings of the analysis. The paths are kept as they were given; what is no text matches no path. -/
structure AnalysisSettings where
  /-- Paths whose blocks count as story even without a label. -/
  storyPaths : List Data := [.text "game/variables.rpy", .text "game/characters.rpy"]
  /-- Blocks whose path ends in one of these are left out. -/
  ignoredSuffixes : List Data := [.text "debug_placeholders.rpy"]
  /-- The largest number of routes to list. -/
  maxRoutes : Nat := 1000
  maxRoutes_pos : 0 < maxRoutes := by decide

namespace AnalysisSettings

def usual : AnalysisSettings := {}

def endsWith (path suffix : String) : Bool := suffix.toList.isSuffixOf path.toList

/-- The path of a block ends with an ignored suffix; a missing or empty path does not. -/
def ignores (s : AnalysisSettings) (path : Option String) : Bool :=
  match path with
  | none => false
  | some p =>
    !p.isEmpty && s.ignoredSuffixes.any fun d =>
      match d with
      | .text suffix => endsWith p suffix
      | _ => false

/-- Looking for an ignored suffix meets one that is no text before it finds one that fits. -/
def stumbles (s : AnalysisSettings) (path : Option String) : Bool :=
  match path with
  | none => false
  | some p =>
    if p.isEmpty then false
    else
      let fits (d : Data) : Bool :=
        match d with
        | .text suffix => endsWith p suffix
        | _ => true
      match s.ignoredSuffixes.find? fits with
      | some (.text _) | none => false
      | some _ => true

def isStoryPath (s : AnalysisSettings) (path : Option String) : Bool :=
  s.storyPaths.any fun d =>
    match d, path with
    | .text p, some q => p == q
    | .null, none => true
    | _, _ => false

/-- A story path has changing parts, so that it cannot be looked up. -/
def hasCompoundPath (s : AnalysisSettings) : Bool := s.storyPaths.any (!·.isKey)

end AnalysisSettings

/-- Distances and sizes in a picture. -/
structure LayoutSettings where
  /-- The distance between layers. -/
  paddingX : Float := 100
  /-- The distance between the nodes of a layer. -/
  paddingY : Float := 80
  /-- The size of a block that has none of its own. -/
  defaultWidth : Float := 300
  defaultHeight : Float := 150
  /-- A block must be larger than this to keep its size. -/
  minNodeSize : Float := 50
  /-- The size of a label. -/
  labelWidth : Float := 180
  labelHeight : Float := 40

namespace LayoutSettings

/-- A length if it is known and above the least, else the default. -/
def length (s : LayoutSettings) (known : Option Float) (default : Float) : Float :=
  match known with
  | some x => if x > s.minNodeSize && x != 0.0 then x else default
  | none => default

/-- The size of a block in a picture. -/
def nodeSize (s : LayoutSettings) (width height : Option Float) : Float × Float :=
  (s.length width s.defaultWidth, s.length height s.defaultHeight)

end LayoutSettings

structure Settings where
  /-- The name of the project as it was given. -/
  name : Data := .text "unnamed"
  analysis : AnalysisSettings := .usual
  layout : LayoutSettings := {}

end Plotline
