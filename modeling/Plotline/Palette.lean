/-!
# Colours

* `Palette.colors`: the eighteen colours of characters and routes.
* `Palette.color`: the colour of an index, counted around the palette in both directions.
* `Palette.hash`: a rolling hash over UTF-16 units; only the shifted operand is cut to 32 bits.
* `Palette.colorOf`: the colour of a text, by its hash.
-/

namespace Plotline.Palette

def colors : Vector String 18 := #v[
  "#E57373", "#F06292", "#BA68C8", "#9575CD", "#7986CB", "#64B5F6", "#4FC3F7", "#4DD0E1", "#4DB6AC",
  "#81C784", "#AED581", "#DCE775", "#FFF176", "#FFD54F", "#FFB74D", "#FF8A65", "#A1887F", "#90A4AE"]

/-- The colour at an index, which may be negative or beyond the last colour. -/
def color (index : Int) : String := colors.get ⟨(index % 18).toNat, by omega⟩

/-- The UTF-16 units of a character: two from U+10000 on. -/
def units (c : Char) : List Nat :=
  if c.toNat < 0x10000 then [c.toNat]
  else [0xD800 + (c.toNat - 0x10000) / 0x400, 0xDC00 + (c.toNat - 0x10000) % 0x400]

/-- The signed value of the low 32 bits. -/
def low32 (v : Int) : Int := v.bmod 4294967296

/-- One step of the hash: 31 times the hash plus the unit, with the product by 32 cut to 32 bits. -/
def hashStep (h : Int) (unit : Nat) : Int := unit + (low32 (low32 h * 32) - h)

/-- The hash of a text over its UTF-16 units. -/
def hash (s : List Char) : Int := (s.flatMap units).foldl hashStep 0

def colorOf (s : List Char) : String := color (hash s).natAbs

end Plotline.Palette
