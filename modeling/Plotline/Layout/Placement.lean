import Plotline.Layout.Layers
import Plotline.Table

/-!
# Placing nodes

* `Length`: the arithmetic of lengths that placing needs, for floats and for exact numbers alike.
* `placeLayer`: the nodes of a layer, one below the other and centred around zero.
* `place`: the positions of all nodes, layer by layer from left to right.
-/

namespace Plotline.Layout

class Length (R : Type) where
  zero : R
  add : R → R → R
  sub : R → R → R
  neg : R → R
  half : R → R
  /-- A whole number of times a length. -/
  times : Nat → R → R
  /-- The first length is smaller. -/
  less : R → R → Bool

instance : Length Float where
  zero := 0.0
  add := (· + ·)
  sub := (· - ·)
  neg := (- ·)
  half := (· / 2)
  times n x := Float.ofNat n * x
  less x y := x < y

structure Sized (R : Type) where
  id : String
  width : R
  height : R

/-- The top left corner of a node. -/
structure Position (R : Type) where
  x : R
  y : R

/-- The distances between layers and between the nodes of a layer. -/
structure Spacing (R : Type) where
  x : R
  y : R

variable {R : Type} [Length R]
open Length

/-- The first of the widest nodes' widths. -/
def widest (first : R) (widths : List R) : R := widths.foldl (fun best w => if less best w then w else best) first

/-- The width of a layer; a layer has at least one node. -/
def layerWidth : List (Sized R) → R
  | [] => zero
  | n :: ns => widest n.width (ns.map (·.width))

def layerHeight (spacing : Spacing R) (members : List (Sized R)) : R :=
  add (members.foldl (fun h n => add h n.height) zero) (times (members.length - 1) spacing.y)

/-- The positions of nodes one below the other from `y` on, each centred in a layer that begins at `x`. -/
def stack (spacing : Spacing R) (x width : R) : (y : R) → List (Sized R) → List (String × Position R)
  | _, [] => []
  | y, n :: ns =>
    (n.id, ⟨add x (half (sub width n.width)), y⟩) :: stack spacing x width (add y (add n.height spacing.y)) ns

/-- The positions of the nodes of a layer that begins at `x`. -/
def placeLayer (spacing : Spacing R) (x : R) (members : List (Sized R)) : List (String × Position R) :=
  stack spacing x (layerWidth members) (half (neg (layerHeight spacing members))) members

/-- The positions of the nodes of layers that begin at `x`. -/
def placeLayers (spacing : Spacing R) : (x : R) → List (List (Sized R)) → List (String × Position R)
  | _, [] => []
  | x, members :: later =>
    placeLayer spacing x members ++ placeLayers spacing (add x (add (layerWidth members) spacing.x)) later

/-- The size that counts for each node: the last one given. -/
def sizes (nodes : List (Sized R)) : Table String (Sized R) := Table.ofList (nodes.map fun n => (n.id, n))

def place (spacing : Spacing R) (nodes : List (Sized R)) (edges : List Edge) : Table String (Position R) :=
  let known := sizes nodes
  let members := (layers (nodes.map (·.id)) edges).map fun layer => layer.filterMap known.get?
  Table.ofList (placeLayers spacing zero members)

end Plotline.Layout
