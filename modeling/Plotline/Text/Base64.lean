/-!
# Bytes in base 64

* `Base64.decode`: the bytes that a text stands for; characters outside the alphabet are passed over.
-/

namespace Plotline.Text.Base64

/-- The six bits that a character stands for. -/
def bits? (c : Char) : Option Nat :=
  if 'A' ≤ c ∧ c ≤ 'Z' then some (c.toNat - 65)
  else if 'a' ≤ c ∧ c ≤ 'z' then some (c.toNat - 71)
  else if '0' ≤ c ∧ c ≤ '9' then some (c.toNat + 4)
  else if c = '+' then some 62
  else if c = '/' then some 63
  else none

/-- How much of a group of four characters has been read. -/
inductive Group where
  | none
  /-- One character, with its six bits. -/
  | one (bits : Nat)
  /-- Two characters, with the four bits that are left over. -/
  | two (bits : Nat)
  /-- Three characters, with the two bits that are left over. -/
  | three (bits : Nat)

/-- The number of padding signs that end a text within a group. -/
def Group.padding? : Group → Option Nat
  | .two _ => some 2
  | .three _ => some 1
  | _ => Option.none

/-- Reads on within a group; `pads` padding signs come before. The text must end with a group, or with as many padding
signs as it lacks, behind which nothing counts. -/
def decodeFrom (group : Group) (pads : Nat) : List Char → Option (List UInt8)
  | [] => match group with
    | .none => some []
    | _ => Option.none
  | c :: r =>
    if c = '=' then
      match group.padding? with
      | some n => if n ≤ pads + 1 then some [] else decodeFrom group (pads + 1) r
      | Option.none => decodeFrom group pads r
    else match bits? c with
      | Option.none => decodeFrom group pads r
      | some b =>
        match group with
        | .none => decodeFrom (.one b) 0 r
        | .one a => (decodeFrom (.two (b % 16)) 0 r).map (UInt8.ofNat (4 * a + b / 16) :: ·)
        | .two a => (decodeFrom (.three (b % 4)) 0 r).map (UInt8.ofNat (16 * a + b / 4) :: ·)
        | .three a => (decodeFrom .none 0 r).map (UInt8.ofNat (64 * a + b) :: ·)

def decode (s : List Char) : Option (List UInt8) := decodeFrom .none 0 s

end Plotline.Text.Base64
