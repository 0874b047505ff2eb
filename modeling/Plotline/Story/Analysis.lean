import Plotline.Project.Reading
import Plotline.Story.Usage

/-!
# The analysis of a story

* `Analysis`: tables, references, roles and usage of one state of the blocks.
* `Analysis.ofBlocks`: the analysis, which every list of blocks has.
* `Analysis.ofBlocks?`: the same, refused for settings that hold something other than paths where paths are looked up.
* `Analysis.toData`: the analysis as data.
-/

namespace Plotline
open Script

/-- What is known about one state of the blocks. -/
structure Analysis where
  tables : Tables
  references : References
  roles : Roles
  usage : Usage

namespace Analysis

def ofBlocks (blocks : List Block) (settings : AnalysisSettings) : Analysis :=
  let tables := Tables.ofBlocks blocks settings
  let references := References.ofBlocks blocks tables
  { tables, references
    roles := Roles.ofBlocks blocks tables references settings
    usage := Usage.ofBlocks blocks tables }

/-- Paths that are no texts get in the way of an analysis. -/
def refuses (blocks : List Block) (settings : AnalysisSettings) : Bool :=
  settings.hasCompoundPath || blocks.any fun b => settings.stumbles b.path

/-- The analysis of blocks, unless the settings hold something other than paths where paths are looked up. -/
def ofBlocks? (blocks : List Block) (settings : AnalysisSettings) : Except SettingsError Analysis :=
  if refuses blocks settings then .error .wrongShape else .ok (ofBlocks blocks settings)

def jumpCount (a : Analysis) : Nat := Number.total (a.references.jumps.values.map List.length)

end Analysis

/-- A whole number, or nothing. -/
def Data.ofInt? (n : Option Int) : Data := (n.map Data.int).getD .null

def Data.ofNat (n : Nat) : Data := .int n

def Table.toData {α : Type} (t : Table String α) (f : α → Data) : Data :=
  .ofTable (t.entries.map fun e => (e.1, f e.2))

def Script.Character.toData (c : Character) : Data :=
  .ofTable [
    ("tag", .text c.tag), ("name", .text c.name), ("color", .text c.color), ("defined_in_block_id", .text c.block),
    ("profile", .ofText? c.profile), ("image", .ofText? c.image), ("who_style", .ofText? c.whoStyle),
    ("who_prefix", .ofText? c.whoPrefix), ("who_suffix", .ofText? c.whoSuffix),
    ("what_color", .ofText? c.whatColor), ("what_style", .ofText? c.whatStyle),
    ("what_prefix", .ofText? c.whatPrefix), ("what_suffix", .ofText? c.whatSuffix), ("slow", .ofBool? c.slow),
    ("slow_speed", .ofInt? c.slowSpeed), ("slow_abortable", .ofBool? c.slowAbortable),
    ("all_at_once", .ofBool? c.allAtOnce), ("window_style", .ofText? c.windowStyle), ("ctc", .ofText? c.mark),
    ("ctc_position", .ofText? (c.markPosition.map MarkPosition.word)), ("interact", .ofBool? c.interact),
    ("afm", .ofBool? c.autoForward), ("what_properties", .ofText? c.whatProperties),
    ("window_properties", .ofText? c.windowProperties)]

def LabelSite.toData (s : LabelSite) : Data :=
  .ofTable [("block_id", .text s.block), ("label", .text s.label), ("line", .int s.line), ("column", .int s.column),
    ("type", .text s.kind.keyword)]

def Jump.toData (j : Jump) : Data :=
  .ofTable [("block_id", .text j.block), ("target", .text j.target), ("line", .int j.line),
    ("column_start", .int j.columnStart), ("column_end", .int j.columnEnd), ("type", .text j.kind.keyword),
    ("is_dynamic", .bool j.dynamic)]

def Link.toData (l : Link) : Data :=
  .ofTable [("source_id", .text l.source), ("target_id", .text l.target), ("target_label", .text l.label)]

def Variable.toData (v : Variable) : Data :=
  .ofTable [("type", .text v.kind.keyword), ("name", .text v.name), ("initial_value", .text v.value),
    ("defined_in_block_id", .text v.block), ("line", .int v.line)]

def Screen.toData (s : Screen) : Data :=
  .ofTable [("name", .text s.name), ("parameters", .text s.parameters), ("defined_in_block_id", .text s.block),
    ("line", .int s.line)]

def UseSite.toData (u : UseSite) : Data := .ofTable [("block_id", .text u.block), ("line", .int u.line)]

def DialogueLine.toData (d : DialogueLine) : Data := .ofTable [("line", .int d.line), ("tag", .text d.tag)]

def NameSet.toData (s : NameSet) : Data := .texts s.sorted

def Data.ofTags (tags : List ContentTag) : Data := .texts (tags.map ContentTag.word)

def BlockFacts.toData (f : BlockFacts) : List (String × Data) :=
  [("block_id", .text f.block), ("labels", .list (f.labels.map LabelSite.toData)),
    ("characters", .list (f.characters.map Script.Character.toData)),
    ("variables", .list (f.vars.map Variable.toData)), ("screens", .list (f.screens.map Screen.toData)),
    ("images", .texts f.images)]

def Tables.toData (t : Tables) : Data :=
  .ofTable [("labels", t.labels.toData LabelSite.toData), ("first_labels", t.firstLabels.toData Data.text),
    ("characters", t.characters.toData Script.Character.toData), ("variables", t.vars.toData Variable.toData),
    ("screens", t.screens.toData Screen.toData), ("defined_images", t.images.toData),
    ("scanned_block_ids", .texts t.scanned)]

def References.toData (r : References) : Data :=
  .ofTable [("jumps", r.jumps.toData fun js => .list (js.map Jump.toData)),
    ("links", .list (r.links.map Link.toData)), ("invalid_jumps", r.invalid.toData Data.texts)]

def Roles.toData (r : Roles) : Data :=
  .ofTable [("root_block_ids", r.roots.toData), ("leaf_block_ids", r.leaves.toData),
    ("branching_block_ids", r.branching.toData), ("story_block_ids", r.story.toData),
    ("screen_only_block_ids", r.screenOnly.toData), ("config_block_ids", r.config.toData),
    ("block_types", r.tags.toData Data.ofTags)]

def Analysis.toData (a : Analysis) : Data :=
  .ofTable [
    ("labels", a.tables.labels.toData LabelSite.toData),
    ("jumps", a.references.jumps.toData fun js => .list (js.map Jump.toData)),
    ("links", .list (a.references.links.map Link.toData)),
    ("invalid_jumps", a.references.invalid.toData Data.texts),
    ("first_labels", a.tables.firstLabels.toData Data.text),
    ("root_block_ids", a.roles.roots.toData), ("leaf_block_ids", a.roles.leaves.toData),
    ("branching_block_ids", a.roles.branching.toData), ("screen_only_block_ids", a.roles.screenOnly.toData),
    ("story_block_ids", a.roles.story.toData), ("config_block_ids", a.roles.config.toData),
    ("characters", a.tables.characters.toData Script.Character.toData),
    ("dialogue_lines", a.usage.dialogue.toData fun ds => .list (ds.map DialogueLine.toData)),
    ("character_usage", a.usage.spoken.toData Data.ofNat),
    ("variables", a.tables.vars.toData Variable.toData),
    ("variable_usages", a.usage.uses.toData fun us => .list (us.map UseSite.toData)),
    ("screens", a.tables.screens.toData Screen.toData), ("defined_images", a.tables.images.toData),
    ("block_types", a.roles.tags.toData Data.ofTags)]

end Plotline
