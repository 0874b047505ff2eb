import Plotline.Number.Arithmetic

/-!
# Binary floating point as exact numbers

* `Parts`: a float as a sign, a mantissa and a power of two.
* `parts`: the parts of a float.
* `nearest`: the float nearest to a fraction, a tie going to the even mantissa.
* `truncated?`: the whole part of a float.
-/

namespace Plotline.Number

/-- What a float stands for. -/
inductive Parts where
  | nan
  | infinite (negative : Bool)
  /-- The number `mantissa * 2 ^ exponent` with a sign. -/
  | finite (negative : Bool) (mantissa : Nat) (exponent : Int)
deriving DecidableEq, Repr

/-- The parts of a float. -/
def parts (x : Float) : Parts :=
  let bits := x.toBits.toNat
  let negative := bits / power 2 63 == 1
  let biased : Nat := bits / power 2 52 % power 2 11
  let fraction : Nat := bits % power 2 52
  if biased = 2047 then
    if fraction = 0 then .infinite negative else .nan
  else if biased = 0 then .finite negative fraction (-1074)
  else .finite negative (power 2 52 + fraction) ((biased : Int) - 1075)

/-- The quotient rounded to the nearest whole number, a tie going to the even one. -/
def roundQuotient (num den : Nat) : Nat :=
  let q := num / den
  let r := num % den
  if 2 * r < den then q
  else if den < 2 * r then q + 1
  else if q % 2 = 0 then q else q + 1

/-- A positive fraction times a power of two, as a fraction. -/
def scaled (num den : Nat) (e : Int) : Nat × Nat :=
  if 0 ≤ e then (num * power 2 e.toNat, den) else (num, den * power 2 (-e).toNat)

def nearestBits (num den : Nat) : Nat :=
  if num = 0 then 0
  else
    let guess : Int := num.log2 - den.log2 - 52
    let short := (scaled num den (-guess)).1 < power 2 52 * (scaled num den (-guess)).2
    let e : Int := max (if short then guess - 1 else guess) (-1074)
    let s := scaled num den (-e)
    -- A mantissa that rounds up to the next power of two carries into the exponent field by itself.
    let bits := if e = -1074 then roundQuotient s.1 s.2
      else (e + 1074).toNat * power 2 52 + roundQuotient s.1 s.2
    min bits (2047 * power 2 52)

def nearest (negative : Bool) (num den : Nat) : Float :=
  Float.ofBits (UInt64.ofNat (nearestBits num den + if negative then power 2 63 else 0))

/-- The float nearest to a whole number, unless it is out of range. -/
def ofInt? (n : Int) : Option Float :=
  if nearestBits n.natAbs 1 = 2047 * power 2 52 then none else some (nearest (n < 0) n.natAbs 1)

def wholePart (negative : Bool) (mantissa : Nat) (exponent : Int) : Int :=
  let n := if 0 ≤ exponent then mantissa * power 2 exponent.toNat else mantissa / power 2 (-exponent).toNat
  if negative then -n else n

end Plotline.Number
