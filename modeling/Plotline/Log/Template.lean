import Plotline.Data.Display
import Plotline.Number.Whole

/-!
# Texts with places to fill

* `Place`: a place in a template, with how its value is written; `Blueprint`: the same as it is written.
* `fill?`: a template with data in its places, if there is one piece of data of the right kind for each.
-/

namespace Plotline.Log.Template

/-- A width or precision: a number, or one that is to be taken from the data. -/
inductive Amount where
  | given (n : Nat)
  | taken
deriving DecidableEq, Repr

/-- How the value in a place is written. -/
structure Place where
  /-- It is taken by its name. -/
  key : Option String := none
  /-- Blanks go behind it. -/
  left : Bool := false
  /-- A number that is not negative has this before it. -/
  plus : Option Char := none
  /-- A number has leading zeros. -/
  zeros : Bool := false
  /-- The base is shown. -/
  alternate : Bool := false
  width : Nat := 0
  precision : Option Nat := none
  kind : Char

/-- A place as it is written, whose width and precision may be taken from the data. -/
structure Blueprint where
  place : Place
  width : Option Amount := none
  precision : Option Amount := none

/-- The text up to the parenthesis that closes the one before it, and what follows that; `depth` pairs are open
inside. -/
def enclosed? (depth : Nat) : List Char → Option (List Char × List Char)
  | [] => none
  | c :: r =>
    if c = ')' then
      match depth with
      | 0 => some ([], r)
      | depth + 1 => (enclosed? depth r).map fun x => (c :: x.1, x.2)
    else (enclosed? (if c = '(' then depth + 1 else depth) r).map fun x => (c :: x.1, x.2)

def flags (p : Place) : List Char → Place × List Char
  | '-' :: r => flags { p with left := true } r
  | '+' :: r => flags { p with plus := some '+' } r
  | ' ' :: r => flags { p with plus := p.plus.or (some ' ') } r
  | '0' :: r => flags { p with zeros := true } r
  | '#' :: r => flags { p with alternate := true } r
  | r => (p, r)

/-- Reads a number, or a star for one that is to be taken from the data. -/
def amount (s : List Char) : Option Amount × List Char :=
  match s with
  | '*' :: r => (some .taken, r)
  | _ =>
    let ds := s.takeWhile Char.isDigit
    (if ds.isEmpty then none else some (.given (Number.digitsValue ds)), s.drop ds.length)

/-- What follows a mark for the size of a number, which says nothing. -/
def skipSize (s : List Char) : List Char :=
  match s with
  | [] => []
  | c :: r => if c = 'h' || c = 'l' || c = 'L' then r else s

/-- Reads a place behind its percent sign. -/
def blueprint? (s : List Char) : Option (Blueprint × List Char) := do
  let (key, s) : Option String × List Char ← match s with
    | '(' :: r => (enclosed? 0 r).map fun x => (some (String.ofList x.1), x.2)
    | _ => some (none, s)
  let (place, s) := flags { key, kind := '%' } s
  let (width, s) := amount s
  let (precision, s) : Option Amount × List Char := match s with
    | '.' :: r => let (n, r) := amount r; (n.or (some (.given 0)), r)
    | _ => (none, s)
  match skipSize s with
  | kind :: r => some (⟨{ place with kind }, width, precision⟩, r)
  | [] => none

/-! ## Numbers -/

/-- What stands before the digits of a number. -/
def Place.mark (p : Place) (negative : Bool) : List Char := if negative then ['-'] else p.plus.toList

/-- A value with blanks or zeros up to the width of its place. -/
def Place.fit (p : Place) (isNumber : Bool) (mark body : List Char) : List Char :=
  let missing := p.width - (mark.length + body.length)
  if p.left then mark ++ body ++ List.replicate missing ' '
  else if p.zeros && isNumber then mark ++ List.replicate missing '0' ++ body
  else List.replicate missing ' ' ++ mark ++ body

def Place.whole (p : Place) (base : Nat) (shown : List Char) (n : Int) : List Char :=
  let ds := Number.padded (p.precision.getD 0) (Nat.toDigits base n.natAbs)
  p.fit true (p.mark (n < 0) ++ if p.alternate then shown else []) ds

/-- Digits with a point before the last `places` of them. -/
def pointed (places : Nat) (alternate : Bool) (n : Nat) : List Char :=
  let ds := Number.padded (places + 1) (Number.digits n)
  let front := ds.take (ds.length - places)
  if places = 0 then front ++ (if alternate then ['.'] else []) else front ++ '.' :: ds.drop (ds.length - places)

/-- A positive number times a power of ten, rounded. -/
def scaledBy (mantissa : Nat) (exponent k : Int) : Nat :=
  let s := Number.scaled (mantissa * Number.power 10 k.toNat) (Number.power 10 (-k).toNat) exponent
  Number.roundQuotient s.1 s.2

/-- A number with so many digits behind the point. -/
def fixed (places : Nat) (alternate : Bool) (mantissa : Nat) (exponent : Int) : List Char :=
  pointed places alternate (scaledBy mantissa exponent places)

/-- The digits of a number, so many behind the first one, and the power of ten of the first one. -/
def scientific (places : Nat) (mantissa : Nat) (exponent : Int) : Nat × Int :=
  if mantissa = 0 then (0, 0)
  else
    let e := (Number.Cell.of mantissa exponent).magnitude - 1
    let n := scaledBy mantissa exponent (places - e)
    if n = Number.power 10 (places + 1) then (n / 10, e + 1) else (n, e)

/-- A number with an exponent of two digits at least. -/
def withExponent (places : Nat) (alternate : Bool) (n : Nat) (e : Int) : List Char :=
  pointed places alternate n ++ 'e' :: (if e < 0 then '-' else '+') :: Number.padded 2 (Number.digits e.natAbs)

/-- A number without the zeros at the end of its fraction. -/
def trimmed (s : List Char) : List Char :=
  let front := s.takeWhile (· ≠ 'e')
  if front.contains '.' then
    (((front.reverse.dropWhile (· = '0')).dropWhile (· = '.')).reverse) ++ s.dropWhile (· ≠ 'e')
  else s

/-- A number with so many digits, with an exponent if it is very small or has more digits before the point. -/
def general (count : Nat) (alternate : Bool) (mantissa : Nat) (exponent : Int) : List Char :=
  let count := max count 1
  let (n, e) := scientific (count - 1) mantissa exponent
  let s := if -4 ≤ e ∧ e < count then fixed (count - 1 - e).toNat alternate mantissa exponent
    else withExponent (count - 1) alternate n e
  if alternate then s else trimmed s

def Place.decimal (p : Place) (x : Float) : List Char :=
  let upper (s : List Char) := if p.kind.isUpper then s.map Char.toUpper else s
  let places := p.precision.getD 6
  match Number.parts x with
  | .nan => p.fit false p.plus.toList (upper ['n', 'a', 'n'])
  | .infinite negative => p.fit false (p.mark negative) (upper ['i', 'n', 'f'])
  | .finite negative mantissa exponent =>
    let kind := p.kind.toLower
    let body := if kind = 'f' then fixed places p.alternate mantissa exponent
      else if kind = 'g' then general places p.alternate mantissa exponent
      else
        let (n, e) := scientific places mantissa exponent
        withExponent places p.alternate n e
    p.fit true (p.mark negative) (upper body)

/-! ## Data -/

/-- Data as a whole number; with `cut` the fraction of a float is left out. -/
def whole? (cut : Bool) : Data → Option Int
  | .int n => some n
  | .bool b => some (if b then 1 else 0)
  | .float x =>
    match Number.parts x.value with
    | .finite negative mantissa exponent => if cut then some (Number.wholePart negative mantissa exponent) else none
    | _ => none
  | _ => none

def float? : Data → Option Float
  | .float x => some x.value
  | .int n => Number.ofInt? n
  | .bool b => some (if b then 1.0 else 0.0)
  | _ => none

def char? : Data → Option Char
  | .text s =>
    match s.toList with
    | [c] => some c
    | _ => none
  | .float _ => none
  | d => (whole? false d).bind fun n => if 0 ≤ n ∧ n.toNat.isValidChar then some (Char.ofNat n.toNat) else none

def Place.text (p : Place) (s : List Char) : List Char := p.fit false [] ((p.precision.map s.take).getD s)

/-- A text whose characters outside ASCII are spelt out. -/
def asciiOnly (s : String) : List Char := s.toList.flatMap fun c => if c.toNat < 127 then [c] else spelledOut c

/-- Data in a place, if it is of the right kind. -/
def Place.write? (p : Place) (d : Data) : Option (List Char) :=
  match p.kind with
  | 's' => some (p.text d.display.toList)
  | 'r' => some (p.text d.inner.toList)
  | 'a' => some (p.text (asciiOnly d.inner))
  | 'd' => (whole? true d).map (p.whole 10 [])
  | 'i' => (whole? true d).map (p.whole 10 [])
  | 'u' => (whole? true d).map (p.whole 10 [])
  | 'x' => (whole? false d).map (p.whole 16 ['0', 'x'])
  | 'X' => (whole? false d).map fun n => (p.whole 16 ['0', 'x'] n).map Char.toUpper
  | 'o' => (whole? false d).map (p.whole 8 ['0', 'o'])
  | 'c' => (char? d).map fun c => p.fit false [] [c]
  | k => if ['e', 'E', 'f', 'F', 'g', 'G'].contains k then (float? d).map p.decimal else none

/-! ## Filling -/

def named? (name : String) : List (Data × Data) → Option Data
  | [] => none
  | (.text k, v) :: es => if k = name then some v else named? name es
  | _ :: es => named? name es

def next? : List Data → Option (Data × List Data)
  | [] => none
  | d :: ds => some (d, ds)

def widest : Nat := 10000000

/-- The number that an amount comes to; one that is taken from the data must be a whole number or a truth value. -/
def Amount.value? (args : List Data) : Amount → Option (Int × List Data)
  | .given n => if n ≤ widest then some (n, args) else none
  | .taken => do
    let (d, args) ← next? args
    match d with
    | .float _ => none
    | d => do
      let n ← whole? false d
      if n.natAbs ≤ widest then some (n, args) else none

/-- The place with its width and precision, and the data that are left. A negative width puts the blanks behind the
value; a negative precision counts as zero. -/
def Blueprint.place? (b : Blueprint) (args : List Data) : Option (Place × List Data) := do
  let (p, args) ← match b.width with
    | none => some (b.place, args)
    | some a => do
      let (n, args) ← a.value? args
      some ({ b.place with width := n.natAbs, left := b.place.left || n < 0 }, args)
  match b.precision with
  | none => some (p, args)
  | some a => do
    let (n, args) ← a.value? args
    some ({ p with precision := some n.toNat }, args)

/-- Fills the places of a template with data from a list. A place with a name has the data of that name in the map, and
nothing else, to take from. -/
def fillFrom (map : Option (List (Data × Data))) :
    (fuel : Nat) → List Data → List Char → Option (List Char × List Data)
  | 0, _, _ => none
  | _ + 1, args, [] => some ([], args)
  | fuel + 1, args, c :: r =>
    if c ≠ '%' then (fillFrom map fuel args r).map fun x => (c :: x.1, x.2)
    else if r.head? = some '%' then (fillFrom map fuel args (r.drop 1)).map fun x => ('%' :: x.1, x.2)
    else do
      let (b, r) ← blueprint? r
      let args ← match b.place.key with
        | some k => (map.bind (named? k)).map fun d => [d]
        | none => some args
      let (p, args) ← b.place? args
      let (d, args) ← next? args
      let s ← p.write? d
      (fillFrom map fuel args r).map fun x => (s ++ x.1, x.2)

/-- A template with data in its places. Without data it stands as it is; all data of a list must be used; a single map
with entries may also be used by its names. -/
def fill? (template : String) (args : List Data) : Option String :=
  let s := template.toList
  let map : Option (List (Data × Data)) := match args with
    | [.map (e :: es)] => some (e :: es)
    | _ => none
  if args.isEmpty then some template
  else
    match fillFrom map (s.length + 1) args s with
    | some (t, rest) => if rest.isEmpty || map.isSome then some (String.ofList t) else none
    | none => none

end Plotline.Log.Template
