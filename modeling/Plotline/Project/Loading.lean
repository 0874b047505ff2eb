import Plotline.Files.Scripts
import Plotline.Project.Reading
import Plotline.Yaml.Value

/-!
# Settings in files

* `ConfigFault`, `ConfigError`: why a settings file cannot be used.
* `FileTree.loadSettings`: the settings in a folder; without a settings file they are those by default, named after the
  folder.
-/

namespace Plotline

/-- Why a settings file cannot be used. -/
inductive ConfigFault where
  /-- There is nothing in it. -/
  | nothing
  | notMap
  /-- It is a folder. -/
  | folder (path : Files.Path)
  /-- Its bytes are no text. -/
  | undecodable (fault : Text.Utf8.Fault)
  /-- Its text is no YAML document. -/
  | yaml (fault : Yaml.Fault)
  /-- What it holds does not fit. -/
  | settings (error : SettingsError)

def ConfigFault.message : ConfigFault → String
  | nothing => "Empty file"
  | notMap => "Top level must be a mapping"
  | folder p => "[Errno 21] Is a directory: " ++ quoted p.toText
  | undecodable f => f.message
  | yaml f => f.message
  | settings e => e.message

/-- A settings file that cannot be used. -/
structure ConfigError where
  path : Files.Path
  fault : ConfigFault

def ConfigError.message (e : ConfigError) : String :=
  "Failed to load project config at " ++ e.path.toText ++ ": " ++ e.fault.message

def configName : Files.FileName := ⟨"rpygraph.yaml", by decide⟩

def Settings.ofBytes (content : Files.Bytes) : Except ConfigFault Settings := do
  let s ← (Text.Utf8.decode content).mapError .undecodable
  match ← (Yaml.read s).mapError .yaml with
  | none | some .null => .error .nothing
  | some (.map es) => (Settings.ofEntries es).mapError .settings
  | some _ => .error .notMap

def placeName (place : Files.Place) : String := ((place.getLast?).map (·.text)).getD "unnamed"

/-- The settings in a folder; without a settings file they are those by default, named after the folder. -/
def Files.FileTree.loadSettings (t : FileTree) (p : Path) : Except ConfigError Settings :=
  let path := p.child configName
  match t.look path with
  | .nothing => .ok { name := .text (placeName (p.locate t.here)) }
  | .folder _ => .error ⟨path, .folder path⟩
  | .file content => (Settings.ofBytes content).mapError fun f => ⟨path, f⟩

end Plotline
