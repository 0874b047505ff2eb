import Plotline.Data.Moment
import Plotline.Number.Shortest

/-!
# Untyped data

* `FloatObject`: a float and the object that holds it.
* `Data`: what settings files and log fields hold before anything is known about them.
* `Data.same`: equality of data, in which numbers and truth values count by their worth and the order of keys does not.
* `Data.isEmpty`: nothing, zero, false and what has no parts.
* `Data.isKey`: data that can name an entry of a map.
* `Data.parts?`: the parts of data that has parts.
-/

namespace Plotline

/-- A float and the object that holds it. The object counts only for what is no number: that differs from every number
and from every other object, but an object is always the same as itself. -/
structure FloatObject where
  value : Float
  /-- The number of the object; one that is met only once needs none. -/
  object : Option Nat := none

instance : Coe Float FloatObject := ⟨fun x => { value := x }⟩

/-- What a number is worth, `mantissa * 2 ^ exponent` with a sign, and the object that holds it. -/
structure Worth where
  parts : Number.Parts
  object : Option Nat := none

namespace Worth

/-- Two worths are one number, or one object that is no number. -/
def same (v w : Worth) : Bool :=
  match v.parts, w.parts with
  | .nan, .nan => v.object.isSome && v.object == w.object
  | .infinite n₁, .infinite n₂ => n₁ == n₂
  | .finite n₁ m₁ e₁, .finite n₂ m₂ e₂ =>
    let e := min e₁ e₂
    (m₁ * Number.power 2 (e₁ - e).toNat == m₂ * Number.power 2 (e₂ - e).toNat) && (m₁ == 0 || n₁ == n₂)
  | _, _ => false

end Worth

def FloatObject.worth (x : FloatObject) : Worth := ⟨Number.parts x.value, x.object⟩

/-- Data without a fixed shape. -/
inductive Data where
  | null
  | bool (b : Bool)
  | int (n : Int)
  | float (x : FloatObject)
  | text (s : String)
  | bytes (bs : List UInt8)
  | moment (m : Moment)
  | list (xs : List Data)
  /-- A list whose items are fixed, so that it can be a key. -/
  | tuple (xs : List Data)
  /-- Different keys without values. -/
  | set (xs : List Data)
  /-- The keys with their values, in order. -/
  | map (entries : List (Data × Data))
deriving Inhabited

namespace Data

/-- The worth of a number or of a truth value, which counts as zero or one. -/
def worth? : Data → Option Worth
  | bool b => some { parts := .finite false (if b then 1 else 0) 0 }
  | int n => some { parts := .finite (n < 0) n.natAbs 0 }
  | float x => some x.worth
  | _ => none

mutual

/-- Equality of data: numbers and truth values by their worth, maps without regard to the order of their keys. -/
def same : Data → Data → Bool
  | null, null => true
  | text s, text t => s == t
  | bytes bs, bytes cs => bs == cs
  | moment m, moment n => m.same n
  | list xs, list ys => sameItems xs ys
  | tuple xs, tuple ys => sameItems xs ys
  | set xs, set ys => xs.length == ys.length && sameMembers xs ys
  | map es, map fs => es.length == fs.length && sameEntries es fs
  | a, b =>
    match a.worth?, b.worth? with
    | some v, some w => v.same w
    | _, _ => false

def sameItems : List Data → List Data → Bool
  | [], [] => true
  | x :: xs, y :: ys => same x y && sameItems xs ys
  | _, _ => false

/-- Every item has its like among `ys`. -/
def sameMembers : List Data → List Data → Bool
  | [], _ => true
  | x :: xs, ys => ys.any (fun y => same x y) && sameMembers xs ys

/-- Every entry has its like among `fs`. -/
def sameEntries : List (Data × Data) → List (Data × Data) → Bool
  | [], _ => true
  | (k, v) :: es, fs => fs.any (fun f => same k f.1 && same v f.2) && sameEntries es fs

end

/-- Nothing, zero, false and what has no parts. -/
def isEmpty : Data → Bool
  | null => true
  | bool b => !b
  | int n => n == 0
  | float x => x.value == 0.0
  | text s => s.isEmpty
  | bytes bs => bs.isEmpty
  | moment _ => false
  | list xs => xs.isEmpty
  | tuple xs => xs.isEmpty
  | set xs => xs.isEmpty
  | map es => es.isEmpty

mutual

/-- Data that can name an entry of a map: what cannot change, and so has no changing parts either. -/
def isKey : Data → Bool
  | list _ => false
  | set _ => false
  | map _ => false
  | tuple xs => areKeys xs
  | _ => true

/-- All items can name entries. -/
def areKeys : List Data → Bool
  | [] => true
  | x :: xs => isKey x && areKeys xs

end

def ofChar (c : Char) : Data := text (String.ofList [c])

/-- The parts of data that has parts: items, characters, bytes or keys. -/
def parts? : Data → Option (List Data)
  | list xs => some xs
  | tuple xs => some xs
  | set xs => some xs
  | text s => some (s.toList.map ofChar)
  | bytes bs => some (bs.map fun b => int b.toNat)
  | map es => some (es.map (·.1))
  | _ => none

def ofTable (entries : List (String × Data)) : Data := map (entries.map fun e => (text e.1, e.2))

def ofText? (s : Option String) : Data := (s.map text).getD null

/-- A truth value, or nothing. -/
def ofBool? (b : Option Bool) : Data := (b.map bool).getD null

def texts (xs : List String) : Data := list (xs.map text)

end Data
end Plotline
