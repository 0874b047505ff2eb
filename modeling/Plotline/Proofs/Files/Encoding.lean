import Plotline.Text.Utf8

/-!
# Texts that come out of bytes

* `encode`: the bytes of a text.
* `decode_encode`: they stand for the text.
* `unmarked`, `decodeMarked_encode`: behind a byte order mark, they stand for the text without the mark.
* `exists_encode_of_isValidUTF8`: valid bytes are those of a text.
-/

namespace Plotline.Text.Utf8

def encode (s : List Char) : List UInt8 := s.flatMap String.utf8EncodeChar

/-- The text behind an optional byte order mark. -/
def unmarked : List Char → List Char
  | '\uFEFF' :: s => s
  | s => s

theorem exists_encode_of_isValidUTF8 {bs : List UInt8} (h : ByteArray.IsValidUTF8 ⟨bs.toArray⟩) :
    ∃ s, bs = encode s := by
  obtain ⟨s, hs⟩ := h
  refine ⟨s, ?_⟩
  have hdata := congrArg (fun b => b.data.toList) hs
  simpa [List.utf8Encode, encode] using hdata

/-! ## One character -/

section Steps
variable {b : UInt8} {bs : List UInt8} {position : Nat} {o : Opening}

theorem decodeFrom_opening (hb : ¬ b.toNat < 0x80) (ho : opening? b position = some o) :
    decodeFrom position none (b :: bs) = decodeFrom (position + 1) (some o) bs := by
  rw [decodeFrom, if_neg hb, ho]

theorem decodeFrom_more (hlow : o.low ≤ b.toNat) (hhigh : b.toNat ≤ o.high) (howed : 1 < o.owed) :
    decodeFrom position (some o) (b :: bs) = decodeFrom (position + 1)
      (some { o with
        read := o.read + 1, owed := o.owed - 1, value := o.value * 64 + (b.toNat - 0x80), low := 0x80, high := 0xBF })
      bs := by
  rw [decodeFrom, if_pos ⟨hlow, hhigh⟩]
  exact if_neg (by omega)

theorem decodeFrom_last (hlow : o.low ≤ b.toNat) (hhigh : b.toNat ≤ o.high) (howed : o.owed = 1) :
    decodeFrom position (some o) (b :: bs) =
      (decodeFrom (position + 1) none bs).map (Char.ofNat (o.value * 64 + (b.toNat - 0x80)) :: ·) := by
  rw [decodeFrom, if_pos ⟨hlow, hhigh⟩]
  exact if_pos howed

/-! The bytes of a character above 127 are its first bits, marked with how many bytes there are, and then six bits
each. -/

theorem decodeFrom_two {b₁ b₂ : UInt8} {v : Nat} (hv : 0x7F < v ∧ v ≤ 0x7FF) (h₁ : b₁.toNat = v / 64 + 0xC0)
    (h₂ : b₂.toNat = v % 64 + 0x80) : decodeFrom position none (b₁ :: b₂ :: bs) =
      (decodeFrom (position + 2) none bs).map (Char.ofNat v :: ·) := by
  have hopening : opening? b₁ position =
      some { first := b₁, start := position, read := 1, owed := 1, value := b₁.toNat - 0xC0 } := by
    unfold opening?
    rw [if_neg (by omega), if_pos (by omega)]
  have hvalue : (b₁.toNat - 0xC0) * 64 + (b₂.toNat - 0x80) = v := by omega
  rw [decodeFrom_opening (by omega) hopening, decodeFrom_last (by dsimp only; omega) (by dsimp only; omega) rfl, hvalue]

theorem decodeFrom_three {b₁ b₂ b₃ : UInt8} {v : Nat} (hv : 0x7FF < v ∧ v ≤ 0xFFFF) (hchar : v < 0xD800 ∨ 0xDFFF < v)
    (h₁ : b₁.toNat = v / 4096 + 0xE0) (h₂ : b₂.toNat = v / 64 % 64 + 0x80) (h₃ : b₃.toNat = v % 64 + 0x80) :
    decodeFrom position none (b₁ :: b₂ :: b₃ :: bs) =
      (decodeFrom (position + 3) none bs).map (Char.ofNat v :: ·) := by
  have hopening : opening? b₁ position = some { first := b₁, start := position, read := 1, owed := 2
                                                value := b₁.toNat - 0xE0
                                                low := if b₁.toNat = 0xE0 then 0xA0 else 0x80
                                                high := if b₁.toNat = 0xED then 0x9F else 0xBF } := by
    unfold opening?
    rw [if_neg (by omega), if_neg (by omega), if_pos (by omega)]
  have hvalue : ((b₁.toNat - 0xE0) * 64 + (b₂.toNat - 0x80)) * 64 + (b₃.toNat - 0x80) = v := by omega
  rw [decodeFrom_opening (by omega) hopening,
    decodeFrom_more (by dsimp only; split <;> omega) (by dsimp only; split <;> omega) (by simp),
    decodeFrom_last (by dsimp only; omega) (by dsimp only; omega) rfl, hvalue]

theorem decodeFrom_four {b₁ b₂ b₃ b₄ : UInt8} {v : Nat} (hv : 0xFFFF < v ∧ v < 0x110000)
    (h₁ : b₁.toNat = v / 262144 + 0xF0) (h₂ : b₂.toNat = v / 4096 % 64 + 0x80) (h₃ : b₃.toNat = v / 64 % 64 + 0x80)
    (h₄ : b₄.toNat = v % 64 + 0x80) : decodeFrom position none (b₁ :: b₂ :: b₃ :: b₄ :: bs) =
      (decodeFrom (position + 4) none bs).map (Char.ofNat v :: ·) := by
  have hopening : opening? b₁ position = some { first := b₁, start := position, read := 1, owed := 3
                                                value := b₁.toNat - 0xF0
                                                low := if b₁.toNat = 0xF0 then 0x90 else 0x80
                                                high := if b₁.toNat = 0xF4 then 0x8F else 0xBF } := by
    unfold opening?
    rw [if_neg (by omega), if_neg (by omega), if_neg (by omega), if_pos (by omega)]
  have hvalue : (((b₁.toNat - 0xF0) * 64 + (b₂.toNat - 0x80)) * 64 + (b₃.toNat - 0x80)) * 64 +
      (b₄.toNat - 0x80) = v := by
    omega
  rw [decodeFrom_opening (by omega) hopening,
    decodeFrom_more (by dsimp only; split <;> omega) (by dsimp only; split <;> omega) (by simp),
    decodeFrom_more (by dsimp only; omega) (by dsimp only; omega) (by simp),
    decodeFrom_last (by dsimp only; omega) (by dsimp only; omega) rfl, hvalue]

end Steps

theorem decodeFrom_encodeChar (c : Char) (bs : List UInt8) (position : Nat) : ∃ next,
    decodeFrom position none (String.utf8EncodeChar c ++ bs) = (decodeFrom next none bs).map (c :: ·) := by
  have hvalid : c.val.toNat < 0xD800 ∨ 0xDFFF < c.val.toNat ∧ c.val.toNat < 0x110000 := c.valid
  have hchar : Char.ofNat c.val.toNat = c := Char.ofNat_toNat c
  unfold String.utf8EncodeChar
  dsimp only
  generalize c.val.toNat = v at hvalid hchar ⊢
  subst hchar
  have hbyte : ∀ n, n < 256 → (UInt8.ofNat n).toNat = n := fun n hn => UInt8.toNat_ofNat_of_lt' hn
  split
  · refine ⟨position + 1, ?_⟩
    rw [List.singleton_append, decodeFrom, if_pos (by rw [hbyte v (by omega)]; omega), hbyte v (by omega)]
  split
  · refine ⟨position + 2, decodeFrom_two ⟨by omega, by omega⟩ ?_ ?_⟩ <;> rw [hbyte _ (by omega)]
    omega
  split
  · refine ⟨position + 3, decodeFrom_three ⟨by omega, by omega⟩ (by omega) ?_ ?_ ?_⟩ <;> rw [hbyte _ (by omega)]
    omega
  · refine ⟨position + 4, decodeFrom_four ⟨by omega, by omega⟩ ?_ ?_ ?_ ?_⟩ <;> rw [hbyte _ (by omega)]
    omega

theorem decodeFrom_encode (s : List Char) (position : Nat) : decodeFrom position none (encode s) = .ok s := by
  induction s generalizing position with
  | nil => rfl
  | cons c s ih =>
      obtain ⟨next, hnext⟩ := decodeFrom_encodeChar c (encode s) position
      rw [encode, List.flatMap_cons]
      exact hnext.trans (by rw [ih next]; rfl)

/-- The bytes of a text stand for the text. -/
theorem decode_encode (s : List Char) : decode (encode s) = .ok s := decodeFrom_encode s 0

/-! ## Byte order marks -/

theorem dropMark_cons_of_ne {b : UInt8} (h : b ≠ 0xEF) (bs : List UInt8) : dropMark (b :: bs) = b :: bs := by
  unfold dropMark
  split <;> simp_all

theorem dropMark_three {b₁ b₂ b₃ : UInt8} (h : ¬ (b₁ = 0xEF ∧ b₂ = 0xBB ∧ b₃ = 0xBF)) (bs : List UInt8) :
    dropMark (b₁ :: b₂ :: b₃ :: bs) = b₁ :: b₂ :: b₃ :: bs := by
  unfold dropMark
  split <;> simp_all

theorem dropMark_encodeChar {c : Char} (hc : c ≠ '\uFEFF') (bs : List UInt8) :
    dropMark (String.utf8EncodeChar c ++ bs) = String.utf8EncodeChar c ++ bs := by
  have hvalid : c.val.toNat < 0xD800 ∨ 0xDFFF < c.val.toNat ∧ c.val.toNat < 0x110000 := c.valid
  have hmark : c.val.toNat ≠ 0xFEFF := fun h => hc (Char.toNat_inj.1 h)
  have hbyte : ∀ n m : Nat, n < 256 → m < 256 → UInt8.ofNat n = UInt8.ofNat m → n = m := by
    intro n m hn hm h
    have htoNat := congrArg UInt8.toNat h
    rwa [UInt8.toNat_ofNat_of_lt' hn, UInt8.toNat_ofNat_of_lt' hm] at htoNat
  unfold String.utf8EncodeChar
  dsimp only
  generalize c.val.toNat = v at hvalid hmark ⊢
  split
  · refine dropMark_cons_of_ne (fun h => ?_) _
    have := hbyte _ 0xEF (by omega) (by omega) h
    omega
  split
  · refine dropMark_cons_of_ne (fun h => ?_) _
    have := hbyte _ 0xEF (by omega) (by omega) h
    omega
  split
  · refine dropMark_three (fun h => ?_) _
    have h₁ := hbyte _ 0xEF (by omega) (by omega) h.1
    have h₂ := hbyte _ 0xBB (by omega) (by omega) h.2.1
    have h₃ := hbyte _ 0xBF (by omega) (by omega) h.2.2
    omega
  · refine dropMark_cons_of_ne (fun h => ?_) _
    have := hbyte _ 0xEF (by omega) (by omega) h
    omega

theorem unmarked_cons_of_ne {c : Char} (hc : c ≠ '\uFEFF') (s : List Char) : unmarked (c :: s) = c :: s := by
  unfold unmarked
  split <;> simp_all

theorem dropMark_encode (s : List Char) : dropMark (encode s) = encode (unmarked s) := by
  rcases s with _ | ⟨c, s⟩
  · rfl
  · by_cases hc : c = '\uFEFF'
    · subst hc
      rfl
    · rw [unmarked_cons_of_ne hc, encode, List.flatMap_cons]
      exact dropMark_encodeChar hc _

/-- The bytes of a text, marked or not, stand for the text without the mark. -/
theorem decodeMarked_encode (s : List Char) : decodeMarked (encode s) = .ok (unmarked s) := by
  rw [decodeMarked, dropMark_encode, decode_encode]

end Plotline.Text.Utf8
