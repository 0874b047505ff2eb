import Plotline.Number.Binary
import Plotline.Number.Whole

/-!
# Decimal numbers in text

* `Decimal`: a sign, digits and a power of ten.
* `Decimal.toFloat`: the nearest float.
* `float?`: a text that is a decimal number, an infinity or no number, with blanks around it and single underscores
  between its digits.
-/

namespace Plotline.Number
open Text

/-- The number `digits * 10 ^ exponent` with a sign. -/
structure Decimal where
  negative : Bool
  digits : Nat
  exponent : Int

/-- The nearest float; beyond the largest one an infinity. -/
def Decimal.toFloat (d : Decimal) : Float :=
  let size : Int := (Nat.log2 d.digits : Int) * 30103 / 100000 + d.exponent
  if d.digits = 0 || size < -400 then nearest d.negative 0 1
  else if 400 < size then nearest d.negative (power 2 1024) 1
  else if 0 ≤ d.exponent then nearest d.negative (d.digits * power 10 d.exponent.toNat) 1
  else nearest d.negative d.digits (power 10 (-d.exponent).toNat)

/-- The exponent of a decimal: nothing, or a mark, a sign and digits up to the end. -/
def exponent? (s : List Char) : Option Int :=
  match s with
  | [] => some 0
  | c :: r =>
    if c = 'e' || c = 'E' then
      let (negative, ds) := sign r
      if ds.isEmpty || !ds.all Unicode.isDigit then none else some (signed negative (digitsValue ds))
    else none

/-- A decimal without sign, up to the end: digits, a point and digits, of which one kind may be missing, and an
exponent. -/
def unsigned? (negative : Bool) (s : List Char) : Option Decimal := do
  let front := s.takeWhile Unicode.isDigit
  let s := s.dropWhile Unicode.isDigit
  let (back, s) := match after? ['.'] s with
    | some r => (r.takeWhile Unicode.isDigit, r.dropWhile Unicode.isDigit)
    | none => ([], s)
  if front.isEmpty && back.isEmpty then none
  else
    let e ← exponent? s
    some ⟨negative, digitsValue (front ++ back), e - back.length⟩

def isInfinityWord (s : List Char) : Bool :=
  s = ['i', 'n', 'f'] || s = ['i', 'n', 'f', 'i', 'n', 'i', 't', 'y']

def float? (s : List Char) : Option Float :=
  let (negative, s) := sign (trimMargins s)
  let word := s.map Char.toLower
  if isInfinityWord word then some (nearest negative (power 2 1024) 1)
  else if word = ['n', 'a', 'n'] then some (0.0 / 0.0)
  else (ungroup? false s).bind fun s => (unsigned? negative s).map Decimal.toFloat

end Plotline.Number
