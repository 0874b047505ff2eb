/-!
# Powers and totals

* `power`: a whole number times itself, so many times.
* `total`: the sum of whole numbers.
-/

namespace Plotline.Number

/-- The product of `k` times `base`. -/
def power (base k : Nat) : Nat := Nat.pow base k

def total (ns : List Nat) : Nat := ns.foldr (· + ·) 0

end Plotline.Number
