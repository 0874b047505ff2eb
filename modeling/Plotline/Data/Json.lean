import Plotline.Data.Display
import Plotline.Number.Whole

/-!
# Data as JSON

* `Json.Format`: what JSON leaves open: the spelling of floats, of what is no finite number and of characters
  outside ASCII.
* `Json.compact`, `Json.indented`: data as JSON on one line, or on many with two spaces to a level; what JSON does not
  know stands as the text that people read.
* `Json.writable`: data that a strict writer takes; `Json.plain`: what it makes of them.
-/

namespace Plotline.Json

/-- What JSON leaves open. -/
structure Format where
  /-- Characters outside ASCII and the delete character are spelt out. -/
  asciiOnly : Bool
  /-- The spelling of finite floats. -/
  floats : Number.Style
  /-- The spelling of what is no number. -/
  nan : String
  /-- The spelling of an infinity, by its sign. -/
  infinity : Bool → String

/-- A number below 2^16 as four hexadecimal digits behind the mark of a character code. -/
def codeUnit (n : Nat) : List Char := '\\' :: 'u' :: hexPadded 4 n

/-- The spelling of a character outside ASCII by its UTF-16 units. -/
def codeUnits (c : Char) : List Char :=
  if c.toNat < 0x10000 then codeUnit c.toNat
  else codeUnit (0xD800 + (c.toNat - 0x10000) / 0x400) ++ codeUnit (0xDC00 + (c.toNat - 0x10000) % 0x400)

def spelt (asciiOnly : Bool) (c : Char) : List Char :=
  if c = '"' || c = '\\' then ['\\', c]
  else if c = '\n' then ['\\', 'n']
  else if c = '\r' then ['\\', 'r']
  else if c = '\t' then ['\\', 't']
  else if c.toNat = 8 then ['\\', 'b']
  else if c.toNat = 12 then ['\\', 'f']
  else if c.toNat < 32 || (asciiOnly && 127 ≤ c.toNat) then codeUnits c
  else [c]

def string (asciiOnly : Bool) (s : String) : String :=
  String.ofList ('"' :: s.toList.flatMap (spelt asciiOnly) ++ ['"'])

def Format.float (f : Format) (x : Float) : String :=
  match Number.parts x with
  | .nan => f.nan
  | .infinite negative => f.infinity negative
  | .finite .. => (f.floats.write? x).getD f.nan

/-- Data without parts; the key of an entry is a text. -/
def Format.atom (f : Format) : Data → String
  | .null => "null"
  | .bool b => if b then "true" else "false"
  | .int n => toString n
  | .float x => f.float x.value
  | .text s => string f.asciiOnly s
  | .list _ | .tuple _ | .set _ => "[]"
  | .map _ => "\x7b\x7d"
  | d => string f.asciiOnly d.display

def Format.key (f : Format) (k : Data) : String := string f.asciiOnly k.display

mutual

def compact (f : Format) : Data → String
  | .list xs | .tuple xs | .set xs => "[" ++ ",".intercalate (compactItems f xs) ++ "]"
  | .map es => "\x7b" ++ ",".intercalate (compactEntries f es) ++ "\x7d"
  | d => f.atom d

def compactItems (f : Format) : List Data → List String
  | [] => []
  | x :: xs => compact f x :: compactItems f xs

def compactEntries (f : Format) : List (Data × Data) → List String
  | [] => []
  | (k, v) :: es => (f.key k ++ ":" ++ compact f v) :: compactEntries f es

end

/-- Parts between brackets, each on a line of its own. -/
def bracketed (opening closing : String) (level : Nat) (parts : List String) : String :=
  if parts.isEmpty then opening ++ closing
  else
    let margin (n : Nat) := "\n" ++ String.ofList (List.replicate (2 * n) ' ')
    opening ++ margin (level + 1) ++ ("," ++ margin (level + 1)).intercalate parts ++ margin level ++ closing

mutual

/-- Data on lines of its own, at a level of indentation. -/
def indented (f : Format) (level : Nat) : Data → String
  | .list xs | .tuple xs | .set xs => bracketed "[" "]" level (indentedItems f (level + 1) xs)
  | .map es => bracketed "\x7b" "\x7d" level (indentedEntries f (level + 1) es)
  | d => f.atom d

def indentedItems (f : Format) (level : Nat) : List Data → List String
  | [] => []
  | x :: xs => indented f level x :: indentedItems f level xs

/-- The entries of a map, each on lines of its own. -/
def indentedEntries (f : Format) (level : Nat) : List (Data × Data) → List String
  | [] => []
  | (k, v) :: es => (f.key k ++ ": " ++ indented f level v) :: indentedEntries f level es

end

/-! ## A strict writer -/

/-- A whole number that is not too long to be spelt. -/
def isShort (n : Int) : Bool := (Number.digits n.natAbs).length ≤ Number.longest

/-- Data that may be the key of an entry: a text, a number, a truth value or nothing. -/
def isKey : Data → Bool
  | .null | .bool _ | .float _ | .text _ => true
  | .int n => isShort n
  | _ => false

def keyText : Data → String
  | .null => "null"
  | .bool b => if b then "true" else "false"
  | .float x =>
    match Number.parts x.value with
    | .nan => "NaN"
    | .infinite negative => if negative then "-Infinity" else "Infinity"
    | .finite .. => displayFloat x.value
  | d => d.display

mutual

/-- Data that can be written: the keys in them must be keys of JSON, and no number may be too long. -/
def writable : Data → Bool
  | .int n => isShort n
  | .list xs | .tuple xs | .set xs => writableItems xs
  | .map es => writableEntries es
  | _ => true

def writableItems : List Data → Bool
  | [] => true
  | x :: xs => writable x && writableItems xs

def writableEntries : List (Data × Data) → Bool
  | [] => true
  | (k, v) :: es => isKey k && writable v && writableEntries es

end

mutual

/-- What is written of data: keys are texts, and what JSON does not know is the text that people read. -/
def plain : Data → Data
  | .list xs | .tuple xs => .list (plainItems xs)
  | .map es => .map (plainEntries es)
  | .bytes bs => .text (Data.bytes bs).display
  | .moment m => .text m.display
  | .set xs => .text (Data.set xs).display
  | d => d

def plainItems : List Data → List Data
  | [] => []
  | x :: xs => plain x :: plainItems xs

def plainEntries : List (Data × Data) → List (Data × Data)
  | [] => []
  | (k, v) :: es => (.text (keyText k), plain v) :: plainEntries es

end

end Plotline.Json
