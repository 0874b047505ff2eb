import Plotline.Data.Basic
import Plotline.Number.Decimal
import Plotline.Text.Base64
import Plotline.Text.Pieces
import Plotline.Yaml.Tag

/-!
# Data that texts in YAML stand for

* `wholeNumber`, `decimalNumber`, `truth`, `writtenMoment`, `base64Bytes`: the data of each kind.
* `Tag.data`: the data of a kind that a text stands for.
-/

namespace Plotline.Yaml

def wholeInBase (base : Nat) (s : List Char) : Except Fault Int :=
  match Number.wholeIn? base s with
  | some n => .ok n
  | none => .error (.notInBase base (String.ofList s))

def wholeDecimal (s : List Char) : Except Fault Int :=
  match Number.whole? s with
  | some n => if Number.longest < Number.digitCount s then .error (.tooManyDigits (Number.digitCount s)) else .ok n
  | none => .error (.notInBase 10 (String.ofList s))

/-- The whole number that a text without underscores and sign stands for: binary behind `0b`, octal behind `0o` and
hexadecimal behind `0x`. In the older version a zero is enough to make it octal, and colons part sixtieths. -/
def unsignedWhole (version : Version) (s : List Char) : Except Fault Int :=
  match s with
  | ['0'] => .ok 0
  | '0' :: 'b' :: r => wholeInBase 2 r
  | '0' :: 'x' :: r => wholeInBase 16 r
  | '0' :: 'o' :: r => wholeInBase 8 r
  | _ =>
    if version = .v12 then wholeDecimal s
    else match s with
      | [] => .error .emptyNumber
      | '0' :: _ => wholeInBase 8 s
      | _ => do
        let parts ← (Text.pieces (· = ':') s).mapM wholeDecimal
        pure (parts.foldl (fun n d => 60 * n + d) 0)

def wholeNumber (version : Version) (s : List Char) : Except Fault Int :=
  let s := s.filter (· ≠ '_')
  if s.isEmpty then .error .emptyNumber
  else
    let (negative, s) := Number.sign s
    (unsignedWhole version s).map fun n => if negative then -n else n

def writtenFloat (s : List Char) : Except Fault Float :=
  match Number.float? s with
  | some x => .ok x
  | none => .error (.notNumber (String.ofList s))

/-- The sum of parts of which each counts sixty times as much as the one behind it; the last one is added first. -/
def sixtiethsTotal (parts : List Float) : Float :=
  (parts.reverse.foldl (fun t x => (t.1 + x * t.2, t.2 * 60.0)) (0.0, 1.0)).1

/-- The object that `.nan` stands for wherever it is written. -/
def noNumber : FloatObject := { value := 0.0 / 0.0, object := some 0 }

/-- The float that a text in lower case without underscores and sign stands for; an infinity begins with a point. In the
older version colons part sixtieths. -/
def unsignedFloat (version : Version) (s : List Char) : Except Fault Float :=
  if s = ".inf".toList then .ok (Number.nearest false (Number.power 2 1024) 1)
  else if version = .v12 then writtenFloat s
  else if s.contains ':' then do pure (sixtiethsTotal (← (Text.pieces (· = ':') s).mapM writtenFloat))
  else if 1 < s.countP (· = 'e') then .error .severalExponents
  else writtenFloat s

def decimalNumber (version : Version) (s : List Char) : Except Fault FloatObject :=
  let s := (s.filter (· ≠ '_')).map Char.toLower
  if s.isEmpty then .error .emptyNumber
  else
    let (negative, s) := Number.sign s
    if s = ".nan".toList then .ok noNumber
    else (unsignedFloat version s).map fun x => { value := if negative then -x else x }

def truth (s : String) : Except Fault Bool :=
  let word := String.ofList (s.toList.map Char.toLower)
  if ["true", "yes", "y", "on"].contains word then .ok true
  else if ["false", "no", "n", "off"].contains word then .ok false
  else .error (.unknownTruth word)

def writtenMoment (s : List Char) : Except Fault Moment :=
  match Stamp.ofText? (Tag.trimLineEnd s) with
  | some stamp => stamp.meant.mapError .badMoment
  | none => .error .unfitTag

/-- The bytes that a text in base 64 stands for. -/
def base64Bytes (s : List Char) : Except Fault (List UInt8) :=
  if s.all fun c => c.toNat < 128 then
    match Text.Base64.decode s with
    | some bs => .ok bs
    | none => .error .badBytes
  else .error .badBytes

/-- The data of a kind that a text stands for, if it is a kind for texts. -/
def Tag.data (version : Version) (tag : Tag) (s : String) : Except Fault Data :=
  match tag with
  | .null => .ok .null
  | .bool => (truth s).map Data.bool
  | .int => (wholeNumber version s.toList).map Data.int
  | .float => (decimalNumber version s.toList).map Data.float
  | .text => .ok (.text s)
  | .bytes => (base64Bytes s.toList).map Data.bytes
  | .moment => (writtenMoment s.toList).map Data.moment
  | _ => .error .unfitTag

end Plotline.Yaml
