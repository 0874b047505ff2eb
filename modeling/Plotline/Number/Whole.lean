import Plotline.Text.Word
import Plotline.Unicode.Decimal

/-!
# Whole numbers in text

* `digitsValue`: the value of a run of decimal digits of any script.
* `wholePrefix?`: the signed whole number at the head of a text.
* `whole?`: a text that is a whole number, with blanks around it and single underscores between its digits.
* `wholeIn?`: the same in another base.
* `longest`: the most digits that a decimal whole number may have.
-/

namespace Plotline.Number
open Text

def digitsValue (ds : List Char) : Nat :=
  ds.foldl (fun n c => 10 * n + (Unicode.digitValue? c).getD 0) 0

/-- Whether a text begins with a minus sign, and what follows its sign. -/
def sign (s : List Char) : Bool × List Char :=
  match s with
  | [] => (false, [])
  | c :: r => if c = '-' then (true, r) else if c = '+' then (false, r) else (false, s)

def signed (negative : Bool) (n : Nat) : Int := if negative then -n else n

/-- The whole number at the head of a text, behind blanks and an optional sign. -/
def wholePrefix? (s : List Char) : Option Int := do
  let (negative, s) := sign (skipBlanks s)
  let (ds, _) ← run? Unicode.isDigit s
  some (signed negative (digitsValue ds))

/-- The blanks that may stand around a number: all but the information separators. -/
def isMargin (c : Char) : Bool := isBlank c && !(28 ≤ c.toNat && c.toNat ≤ 31)

/-- A text without the blanks that may stand around a number. -/
def trimMargins (s : List Char) : List Char :=
  ((s.dropWhile isMargin).reverse.dropWhile isMargin).reverse

/-- The text without its underscores, each of which must stand between two digits. -/
def ungroup? : (afterDigit : Bool) → List Char → Option (List Char)
  | _, [] => some []
  | afterDigit, c :: r =>
    if c = '_' then
      if afterDigit && (r.head?.any Unicode.isDigit) then ungroup? false r else none
    else (ungroup? (Unicode.isDigit c) r).map (c :: ·)

def whole? (s : List Char) : Option Int := do
  let (negative, s) := sign (trimMargins s)
  let ds ← ungroup? false s
  if ds.isEmpty || !ds.all Unicode.isDigit then none
  else some (signed negative (digitsValue ds))

/-- The value of a digit of any script, or of a letter that stands for a digit above nine. -/
def digitIn? (base : Nat) (c : Char) : Option Nat :=
  let value : Option Nat :=
    if 'a' ≤ c ∧ c ≤ 'z' then some (c.toNat - 87)
    else if 'A' ≤ c ∧ c ≤ 'Z' then some (c.toNat - 55)
    else Unicode.digitValue? c
  value.filter (· < base)

/-- The letter that announces a base behind a zero. -/
def baseMark? (base : Nat) : Option Char :=
  if base = 2 then some 'b' else if base = 8 then some 'o' else if base = 16 then some 'x' else none

/-- The digits behind the announcement of a base, which may be missing. -/
def skipBaseMark (base : Nat) (s : List Char) : List Char :=
  match s with
  | '0' :: c :: r => if baseMark? base = some c.toLower then r else s
  | _ => s

/-- The whole number that a text without underscores stands for in a base of at most 36. -/
def wholeIn? (base : Nat) (s : List Char) : Option Int := do
  let (negative, s) := sign (trimMargins s)
  let ds := skipBaseMark base s
  if ds.isEmpty then none
  else
    let values ← ds.mapM (digitIn? base)
    some (signed negative (values.foldl (fun n d => base * n + d) 0))

/-- The most digits that a decimal whole number may have, in either direction. -/
def longest : Nat := 4300

def digitCount (s : List Char) : Nat := s.countP Unicode.isDigit

end Plotline.Number
