import Plotline.Number.Shortest

/-!
# Text in bytes

* `Utf8.decode`: the characters that bytes stand for, or the first place where they stand for none.
* `Utf8.decodeMarked`: the same behind an optional byte order mark.
* `unifyLineEnds`: a text whose lines all end with a line feed.
* `mergeLineEnds`: a text without carriage returns before line feeds.
-/

namespace Plotline.Text

namespace Utf8

/-- Why bytes stand for no character. -/
inductive Reason where
  /-- No character begins with this byte. -/
  | invalidStart
  /-- The bytes of a character break off before another one begins. -/
  | invalidContinuation
  /-- The bytes of a character break off at the end. -/
  | unexpectedEnd
deriving DecidableEq, Repr

def Reason.text : Reason → String
  | invalidStart => "invalid start byte"
  | invalidContinuation => "invalid continuation byte"
  | unexpectedEnd => "unexpected end of data"

/-- Bytes that stand for no character. -/
structure Fault where
  /-- The first of them. -/
  byte : UInt8
  /-- The number of bytes before them. -/
  start : Nat
  /-- How many they are. -/
  count : Nat
  reason : Reason
deriving DecidableEq, Repr

def Fault.message (f : Fault) : String :=
  let place :=
    if f.count = 1 then "byte 0x" ++ String.ofList (Number.padded 2 (Nat.toDigits 16 f.byte.toNat)) ++ " in position "
      ++ toString f.start
    else "bytes in position " ++ toString f.start ++ "-" ++ toString (f.start + f.count - 1)
  "'utf-8' codec can't decode " ++ place ++ ": " ++ f.reason.text

/-- A character of which some bytes have been read. -/
structure Opening where
  first : UInt8
  start : Nat
  /-- How many bytes have been read. -/
  read : Nat
  /-- How many bytes are to come. -/
  owed : Nat
  /-- The value of the bits read. -/
  value : Nat
  /-- The bounds of the next byte. -/
  low : Nat := 0x80
  high : Nat := 0xBF

def Opening.fault (o : Opening) (reason : Reason) : Fault := ⟨o.first, o.start, o.read, reason⟩

/-- The character that begins with a byte above 127. -/
def opening? (b : UInt8) (start : Nat) : Option Opening :=
  let n := b.toNat
  if n < 0xC2 then none
  else if n ≤ 0xDF then some { first := b, start, read := 1, owed := 1, value := n - 0xC0 }
  else if n ≤ 0xEF then
    some { first := b, start, read := 1, owed := 2, value := n - 0xE0
           low := if n = 0xE0 then 0xA0 else 0x80
           high := if n = 0xED then 0x9F else 0xBF }
  else if n ≤ 0xF4 then
    some { first := b, start, read := 1, owed := 3, value := n - 0xF0
           low := if n = 0xF0 then 0x90 else 0x80
           high := if n = 0xF4 then 0x8F else 0xBF }
  else none

/-- The characters of bytes that follow `position` other bytes and, perhaps, the first bytes of a character. -/
def decodeFrom : (position : Nat) → Option Opening → List UInt8 → Except Fault (List Char)
  | _, none, [] => .ok []
  | _, some o, [] => .error (o.fault .unexpectedEnd)
  | position, none, b :: bs =>
    if b.toNat < 0x80 then (decodeFrom (position + 1) none bs).map (Char.ofNat b.toNat :: ·)
    else match opening? b position with
      | some o => decodeFrom (position + 1) (some o) bs
      | none => .error ⟨b, position, 1, .invalidStart⟩
  | position, some o, b :: bs =>
    if o.low ≤ b.toNat ∧ b.toNat ≤ o.high then
      let value := o.value * 64 + (b.toNat - 0x80)
      if o.owed = 1 then (decodeFrom (position + 1) none bs).map (Char.ofNat value :: ·)
      else
        decodeFrom (position + 1)
          (some { o with read := o.read + 1, owed := o.owed - 1, value, low := 0x80, high := 0xBF }) bs
    else .error (o.fault .invalidContinuation)

def decode (bs : List UInt8) : Except Fault (List Char) := decodeFrom 0 none bs

/-- Bytes without a leading byte order mark; one that breaks off at the end counts as well. -/
def dropMark : List UInt8 → List UInt8
  | [0xEF] => []
  | [0xEF, 0xBB] => []
  | 0xEF :: 0xBB :: 0xBF :: bs => bs
  | bs => bs

/-- The characters of bytes behind an optional byte order mark; positions are counted from behind the mark. -/
def decodeMarked (bs : List UInt8) : Except Fault (List Char) := decode (dropMark bs)

end Utf8

/-- A text in which carriage returns, alone or before a line feed, have become line feeds. -/
def unifyLineEnds : List Char → List Char
  | [] => []
  | '\r' :: '\n' :: r => '\n' :: unifyLineEnds r
  | c :: r => (if c = '\r' then '\n' else c) :: unifyLineEnds r

theorem not_mem_unifyLineEnds (s : List Char) : '\r' ∉ unifyLineEnds s := by
  fun_induction unifyLineEnds s with
  | case1 => simp
  | case2 r ih => simp [ih]
  | case3 c r _ ih =>
    simp only [List.mem_cons, not_or]
    exact ⟨by split <;> simp_all [eq_comm], ih⟩

/-- A text in which a carriage return and a line feed have become one line feed; other carriage returns stay. -/
def mergeLineEnds : List Char → List Char
  | [] => []
  | '\r' :: '\n' :: r => '\n' :: mergeLineEnds r
  | c :: r => c :: mergeLineEnds r

theorem mergeLineEnds_of_not_mem {s : List Char} (h : '\r' ∉ s) : mergeLineEnds s = s := by
  fun_induction mergeLineEnds s with
  | case1 => rfl
  | case2 r _ => simp at h
  | case3 c r _ ih => rw [ih fun hr => h (List.mem_cons_of_mem c hr)]

end Plotline.Text
