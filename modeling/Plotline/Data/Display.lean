import Plotline.Data.Basic

/-!
# Data as people read it

* `quoted`, `quotedBytes`: a text or bytes in quotes with unprintable characters spelt out.
* `displayStyle`: floats without an exponent from 0.0001 up to 10^16, with at least two digits in an exponent.
* `Data.display`: data as people read it; a text stands without quotes unless it is a part of something.
-/

namespace Plotline

/-- The characters outside ASCII that have no shape of their own: controls, separators, format and private ones. -/
def shapelessRanges : Array (Nat × Nat) := #[
  (0x80, 0xA0), (0xAD, 0xAD), (0x600, 0x605), (0x61C, 0x61C), (0x6DD, 0x6DD), (0x70F, 0x70F), (0x890, 0x891),
  (0x8E2, 0x8E2), (0x1680, 0x1680), (0x180E, 0x180E), (0x2000, 0x200F), (0x2028, 0x202F), (0x205F, 0x206F),
  (0x3000, 0x3000), (0xE000, 0xF8FF), (0xFEFF, 0xFEFF), (0xFFF0, 0xFFFB), (0xFFFE, 0xFFFF), (0x110BD, 0x110BD),
  (0x110CD, 0x110CD), (0x13430, 0x13438), (0x1BCA0, 0x1BCA3), (0x1D173, 0x1D17A), (0xE0000, 0xE00FF),
  (0xE01F0, 0x10FFFF)]

def isShapeless (c : Char) : Bool :=
  c.toNat < 32 || c.toNat == 127 || shapelessRanges.any fun r => r.1 ≤ c.toNat && c.toNat ≤ r.2

/-- The hexadecimal digits of a number with leading zeros up to a width. -/
def hexPadded (width n : Nat) : List Char := Number.padded width (Nat.toDigits 16 n)

def spelledOut (c : Char) : List Char :=
  if c.toNat < 0x100 then '\\' :: 'x' :: hexPadded 2 c.toNat
  else if c.toNat < 0x10000 then '\\' :: 'u' :: hexPadded 4 c.toNat
  else '\\' :: 'U' :: hexPadded 8 c.toNat

/-- The spelling of a character in quotes of the kind `quote`. -/
def spelt (quote c : Char) : List Char :=
  if c = quote || c = '\\' then ['\\', c]
  else if c = '\n' then ['\\', 'n']
  else if c = '\r' then ['\\', 'r']
  else if c = '\t' then ['\\', 't']
  else if isShapeless c then spelledOut c
  else [c]

/-- The quote around a text: a single one, unless it has single quotes and no double ones. -/
def quoteFor (cs : List Char) : Char := if cs.contains '\'' && !cs.contains '"' then '"' else '\''

def quoted (s : String) : String :=
  let quote := quoteFor s.toList
  String.ofList (quote :: s.toList.flatMap (spelt quote) ++ [quote])

/-- Bytes in quotes: those of ASCII characters as these are, and the others spelt out. -/
def quotedBytes (bs : List UInt8) : String :=
  let cs := bs.map fun b => Char.ofNat b.toNat
  let quote := quoteFor cs
  let spell (c : Char) := if c.toNat < 127 then spelt quote c else spelledOut c
  String.ofList ('b' :: quote :: cs.flatMap spell ++ [quote])

def displayStyle : Number.Style := { lowest := -3, plus := "+", exponentDigits := 2 }

def displayFloat (x : Float) : String :=
  match Number.parts x with
  | .nan => "nan"
  | .infinite negative => if negative then "-inf" else "inf"
  | .finite .. => (displayStyle.write? x).getD ""

namespace Data

mutual

/-- Data as a part of something: a text stands in quotes. -/
def inner : Data → String
  | null => "None"
  | bool b => if b then "True" else "False"
  | int n => toString n
  | float x => displayFloat x.value
  | text s => quoted s
  | bytes bs => quotedBytes bs
  | moment m => m.inner
  | list xs => "[" ++ ", ".intercalate (innerItems xs) ++ "]"
  | tuple [x] => "(" ++ inner x ++ ",)"
  | tuple xs => "(" ++ ", ".intercalate (innerItems xs) ++ ")"
  | set [] => "set()"
  | set xs => "\x7b" ++ ", ".intercalate (innerItems xs) ++ "\x7d"
  | map es => "\x7b" ++ ", ".intercalate (innerEntries es) ++ "\x7d"

def innerItems : List Data → List String
  | [] => []
  | x :: xs => inner x :: innerItems xs

def innerEntries : List (Data × Data) → List String
  | [] => []
  | (k, v) :: es => (inner k ++ ": " ++ inner v) :: innerEntries es

end

def display : Data → String
  | text s => s
  | moment m => m.display
  | d => d.inner

end Data
end Plotline
