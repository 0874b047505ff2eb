import Plotline.Data.Display
import Plotline.Number.Decimal
import Plotline.Number.Refusal
import Plotline.Project.Settings
import Plotline.Record
import Plotline.Table

/-!
# Settings from untyped data

* `SettingsError`: why settings cannot be read.
* `entries`, `items`, `wholeNumber`, `decimalNumber`: data as a map, a list, a whole number and a float.
* `Settings.ofData`: the settings that a map describes; what it does not say stays as it is by default.
-/

namespace Plotline

/-- Why settings cannot be read. -/
inductive SettingsError where
  /-- The cap on routes is not positive. -/
  | maxRoutesNotPositive (given : Int)
  /-- A distance is below zero. -/
  | negativePadding (name : String)
  /-- A text or bytes, in quotes here, are no whole number. -/
  | notWhole (quoted : String)
  /-- A text or bytes, in quotes here, are no number. -/
  | notNumber (quoted : String)
  /-- A whole number has too many digits. -/
  | tooManyDigits (count : Nat)
  /-- An item of a list of pairs has another number of parts. -/
  | notPair (index length : Nat)
  /-- What is no number has no whole part. -/
  | noWholePart
  /-- An infinity has no whole part. -/
  | infinite
  /-- A whole number is larger than any float. -/
  | tooLarge
  /-- Data of this shape cannot stand here. -/
  | wrongShape
deriving DecidableEq, Repr

namespace SettingsError

def message : SettingsError → String
  | maxRoutesNotPositive n =>
    if n.natAbs < Number.power 10 Number.longest then "max_routes must be positive, got " ++ toString n
    else Number.tooLong none
  | negativePadding name => name ++ " must not be negative"
  | notWhole s => Number.notInBase 10 s
  | notNumber s => Number.notFloat s
  | tooManyDigits n => Number.tooLong (some n)
  | notPair i n =>
    "dictionary update sequence element #" ++ toString i ++ " has length " ++ toString n ++ "; 2 is required"
  | noWholePart => "cannot convert float NaN to integer"
  | infinite => "cannot convert float infinity to integer"
  | tooLarge => "int too large to convert to float"
  | wrongShape => "the value has the wrong shape"

end SettingsError

def pairEntries : (index : Nat) → List Data → Except SettingsError (List (Data × Data))
  | _, [] => .ok []
  | i, d :: ds =>
    match d.parts? with
    | none => .error .wrongShape
    | some [k, v] =>
      if k.isKey then (pairEntries (i + 1) ds).map ((k, v) :: ·) else .error .wrongShape
    | some xs => .error (.notPair i xs.length)

/-- The entries of a map, or of a list of pairs; empty data has none. -/
def entries (d : Data) : Except SettingsError (List (Data × Data)) :=
  if d.isEmpty then .ok []
  else match d with
    | .map es => .ok es
    | _ =>
      match d.parts? with
      | some ds => pairEntries 0 ds
      | none => .error .wrongShape

/-- The named entries of a map, the last one of a name in the place of the first. -/
def namedEntries (es : List (Data × Data)) : Table String Data :=
  Table.ofList (es.filterMap fun e =>
    match e.1 with
    | .text k => some (k, e.2)
    | _ => none)

/-- The items of a list, the characters of a text or the keys of a map. -/
def items (d : Data) : Except SettingsError (List Data) :=
  match d.parts? with
  | some ds => .ok ds
  | none => .error .wrongShape

/-- Bytes as ASCII characters; the others become a character that is in no number. -/
def asciiChars (bs : List UInt8) : List Char := bs.map fun b => if b < 128 then Char.ofNat b.toNat else '\uFFFD'

/-- A whole number from text; `shown` is the text in quotes. -/
def wholeText (shown : String) (s : List Char) : Except SettingsError Int :=
  match Number.whole? s with
  | some n => if Number.longest < Number.digitCount s then .error (.tooManyDigits (Number.digitCount s)) else .ok n
  | none => .error (.notWhole shown)

/-- A float from text; `shown` is the text in quotes. -/
def decimalText (shown : String) (s : List Char) : Except SettingsError Float :=
  match Number.float? s with
  | some x => .ok x
  | none => .error (.notNumber shown)

def wholeNumber : Data → Except SettingsError Int
  | .bool b => .ok (if b then 1 else 0)
  | .int n => .ok n
  | .float x =>
    match Number.parts x.value with
    | .nan => .error .noWholePart
    | .infinite _ => .error .infinite
    | .finite negative mantissa exponent => .ok (Number.wholePart negative mantissa exponent)
  | .text s => wholeText (quoted s) s.toList
  | .bytes bs => wholeText (quotedBytes bs) (asciiChars bs)
  | _ => .error .wrongShape

def decimalNumber : Data → Except SettingsError Float
  | .bool b => .ok (if b then 1.0 else 0.0)
  | .int n =>
    match Number.ofInt? n with
    | some x => .ok x
    | none => .error .tooLarge
  | .float x => .ok x.value
  | .text s => decimalText (quoted s) s.toList
  | .bytes bs => decimalText (quotedBytes bs) (asciiChars bs)
  | _ => .error .wrongShape

/-- Reads an entry, or keeps what is there by default. -/
def readOr {α : Type} (read : Data → Except SettingsError α) (es : Table String Data) (name : String) (d : α) :
    Except SettingsError α :=
  match es.get? name with
  | some v => read v
  | none => .ok d

/-- A cap on routes must be positive. -/
def AnalysisSettings.withCap (s : AnalysisSettings) (cap : Int) : Except SettingsError AnalysisSettings :=
  if h : 0 < cap then .ok { s with maxRoutes := cap.toNat, maxRoutes_pos := by omega }
  else .error (.maxRoutesNotPositive cap)

def AnalysisSettings.ofEntries (es : Table String Data) : Except SettingsError AnalysisSettings := do
  let d := AnalysisSettings.usual
  let storyPaths ← readOr items es "special_story_paths" d.storyPaths
  let ignoredSuffixes ← readOr items es "ignored_path_suffixes" d.ignoredSuffixes
  let cap ← readOr wholeNumber es "max_routes" (d.maxRoutes : Int)
  { d with storyPaths, ignoredSuffixes }.withCap cap

/-- Sets a distance or size by its name; other names are passed over. -/
def LayoutSettings.set (s : LayoutSettings) (name : String) (v : Data) : Except SettingsError LayoutSettings :=
  match name with
  | "padding_x" => (decimalNumber v).map fun x => { s with paddingX := x }
  | "padding_y" => (decimalNumber v).map fun x => { s with paddingY := x }
  | "default_width" => (decimalNumber v).map fun x => { s with defaultWidth := x }
  | "default_height" => (decimalNumber v).map fun x => { s with defaultHeight := x }
  | "min_node_size" => (decimalNumber v).map fun x => { s with minNodeSize := x }
  | "label_node_width" => (decimalNumber v).map fun x => { s with labelWidth := x }
  | "label_node_height" => (decimalNumber v).map fun x => { s with labelHeight := x }
  | _ => .ok s

/-- The distances and sizes that a map describes, read in its order; no distance may be below zero. -/
def LayoutSettings.ofEntries (es : Table String Data) : Except SettingsError LayoutSettings := do
  let s ← es.entries.foldlM (fun s e => s.set e.1 e.2) {}
  if s.paddingX < 0 then .error (.negativePadding "padding_x")
  else if s.paddingY < 0 then .error (.negativePadding "padding_y")
  else .ok s

def Settings.ofEntries (es : List (Data × Data)) : Except SettingsError Settings := do
  let es := namedEntries es
  let analysis ← entries ((es.get? "analysis").getD .null)
  let analysis ← AnalysisSettings.ofEntries (namedEntries analysis)
  let layout ← entries ((es.get? "layout").getD .null)
  let layout ← LayoutSettings.ofEntries (namedEntries layout)
  .ok { name := (es.get? "name").getD (.text "unnamed"), analysis, layout }

def LayoutSettings.toData (s : LayoutSettings) : Data :=
  .ofTable [("padding_x", .float s.paddingX), ("padding_y", .float s.paddingY),
    ("default_width", .float s.defaultWidth), ("default_height", .float s.defaultHeight),
    ("min_node_size", .float s.minNodeSize), ("label_node_width", .float s.labelWidth),
    ("label_node_height", .float s.labelHeight)]

def AnalysisSettings.toData (s : AnalysisSettings) : Data :=
  .ofTable [("special_story_paths", .list s.storyPaths), ("ignored_path_suffixes", .list s.ignoredSuffixes),
    ("max_routes", .int s.maxRoutes)]

def Settings.toData (s : Settings) : Data :=
  .ofTable [("name", s.name), ("analysis", s.analysis.toData), ("layout", s.layout.toData)]

end Plotline
