import Plotline.Number.Binary

/-!
# The fewest digits that read back

* `shortest`: the decimal with the fewest digits that is nearer to a float than to any other, and of those the nearest.
* `Style`: how such a decimal is written.
* `Style.write`: a float in a style.
-/

namespace Plotline.Number

/-- A whole number of quarter units in the last place, each worth `2 ^ e`, against `c` times a power of ten:
`c * 10 ^ k` minus `b * 2 ^ e`, up to a positive factor. -/
def compareScaled (c : Nat) (k : Int) (b : Nat) (e : Int) : Int :=
  (c * power 10 k.toNat * power 2 (-e).toNat : Nat) - (b * power 2 e.toNat * power 10 (-k).toNat : Nat)

/-- The numbers that round to `mantissa * 2 ^ exponent`, in quarters of its last place: the ends and whether they
belong to it. Below a power of two the gap is half as wide. -/
structure Cell where
  low : Nat
  value : Nat
  high : Nat
  exponent : Int
  closed : Bool

def Cell.of (mantissa : Nat) (exponent : Int) : Cell :=
  { low := 4 * mantissa - if mantissa = power 2 52 ∧ -1074 < exponent then 1 else 2
    value := 4 * mantissa
    high := 4 * mantissa + 2
    exponent := exponent - 2
    closed := mantissa % 2 = 0 }

/-- Whether `c * 10 ^ k` lies in the cell. -/
def Cell.holds (cell : Cell) (c : Nat) (k : Int) : Bool :=
  let fromLow := compareScaled c k cell.low cell.exponent
  let fromHigh := compareScaled c k cell.high cell.exponent
  (0 < fromLow || (cell.closed && fromLow = 0)) && (fromHigh < 0 || (cell.closed && fromHigh = 0))

/-- The number of steps `10 ^ k` that fit into the value of the cell. -/
def Cell.steps (cell : Cell) (k : Int) : Nat :=
  (cell.value * power 2 cell.exponent.toNat * power 10 (-k).toNat) /
    (power 10 k.toNat * power 2 (-cell.exponent).toNat)

/-- The neighbour of the value on the grid of step `10 ^ k` that lies in the cell; of two the nearer one, of two
equally near the even one. -/
def Cell.neighbour? (cell : Cell) (k : Int) : Option Nat :=
  let c := cell.steps k
  match cell.holds c k && 0 < c, cell.holds (c + 1) k with
  | true, false => some c
  | false, true => some (c + 1)
  | false, false => none
  | true, true =>
    let d := compareScaled (2 * c + 1) k (2 * cell.value) cell.exponent
    if 0 < d then some c else if d < 0 then some (c + 1) else if c % 2 = 0 then some c else some (c + 1)

/-- A number `p` with `10 ^ (p - 1) ≤ value < 10 ^ p`. -/
def Cell.magnitude (cell : Cell) : Int :=
  let log2 : Int := cell.value.log2 + cell.exponent
  -- 30103 / 100000 is just above the decimal logarithm of two.
  let guess : Int := log2 * 30103 / 100000
  if cell.steps (guess + 1) ≠ 0 then guess + 2 else if cell.steps guess ≠ 0 then guess + 1 else guess

/-- The first grid with a neighbour, from `digits` digits on; `left` bounds the search. -/
def Cell.search (cell : Cell) (magnitude : Int) : (left digits : Nat) → Nat × Int
  | 0, digits => (cell.steps (magnitude - digits), magnitude - digits)
  | left + 1, digits =>
    match cell.neighbour? (magnitude - digits) with
    | some c => (c, magnitude - digits)
    | none => cell.search magnitude left (digits + 1)

/-- Takes trailing zeros from a positive number into the power of ten; `left` bounds their number. -/
def stripZeros : (left : Nat) → Nat → Int → Nat × Int
  | 0, c, k => (c, k)
  | left + 1, c, k => if c % 10 = 0 then stripZeros left (c / 10) (k + 1) else (c, k)

/-- The decimal `c * 10 ^ k` with the fewest digits that reads back as a positive float, without trailing zeros.
Seventeen digits always suffice. -/
def shortest (mantissa : Nat) (exponent : Int) : Nat × Int :=
  let cell := Cell.of mantissa exponent
  let (c, k) := cell.search cell.magnitude 17 1
  stripZeros 18 c k

/-- How decimals are written. -/
structure Style where
  /-- Numbers from `10 ^ (lowest - 1)` on are written without an exponent. -/
  lowest : Int
  /-- Numbers from `10 ^ highest` on are written with an exponent. -/
  highest : Int := 16
  /-- What a positive exponent begins with. -/
  plus : String
  /-- The least number of digits of an exponent. -/
  exponentDigits : Nat

def digits (n : Nat) : List Char := Nat.toDigits 10 n

/-- Digits with leading zeros up to a width. -/
def padded (width : Nat) (ds : List Char) : List Char := List.replicate (width - ds.length) '0' ++ ds

/-- The positive decimal `c * 10 ^ k` in a style. -/
def Style.writePositive (style : Style) (c : Nat) (k : Int) : List Char :=
  let ds := digits c
  let point : Int := ds.length + k
  if style.lowest ≤ point ∧ point ≤ style.highest then
    if point ≤ 0 then '0' :: '.' :: (List.replicate (-point).toNat '0' ++ ds)
    else if (ds.length : Int) ≤ point then ds ++ List.replicate (point - ds.length).toNat '0' ++ ['.', '0']
    else ds.take point.toNat ++ '.' :: ds.drop point.toNat
  else
    let e := point - 1
    let fraction := if ds.length = 1 then [] else '.' :: ds.drop 1
    let mark := if e < 0 then ['-'] else style.plus.toList
    ds.take 1 ++ fraction ++ 'e' :: mark ++ padded style.exponentDigits (digits e.natAbs)

/-- A finite float in a style; infinities and the absence of a number have no digits. -/
def Style.write? (style : Style) (x : Float) : Option String :=
  match parts x with
  | .nan | .infinite _ => none
  | .finite negative mantissa exponent =>
    let body := if mantissa = 0 then ['0', '.', '0']
      else
        let (c, k) := shortest mantissa exponent
        style.writePositive c k
    some (String.ofList (if negative then '-' :: body else body))

end Plotline.Number
